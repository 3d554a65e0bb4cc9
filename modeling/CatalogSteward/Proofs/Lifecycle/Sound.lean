import CatalogSteward.Proofs.Lifecycle.Replay
import CatalogSteward.Proofs.Lock.Balance

/-!
# Interleaved operations and their replay

However threads interleave, the catalog and all results are as if the operations had been carried out one
after another, in the order in which they entered the lock. The invariant compares a state with the replay
of the operations that have entered the lock so far. Each operation inside has a prospect: the result that
it would have if it went on alone from the catalog as it is now. The results and prospects are those of
the replay; and the catalog is that of the replay too, except that a writer that is inside has yet to
bring it there.
-/

namespace CatalogSteward.Lifecycle.System
open Act Client

def catalog (s : System) : Catalog := s.shared.world.server.catalog

/-- The result that an operation inside would have if it went on alone. -/
def prospect (s : System) (t : Nat) : Option Result :=
  match (s.workers t).stage with
  | .inside job reply qs => some (job.call.resume reply qs s.catalog).1
  | _ => none

/-- The result of an operation that has ended, or else its prospect. -/
def foreseen (s : System) (o : Op) : Option Result := (s.result? o).or (s.prospect o.thread)

/-- A thread has prepared a job and has not entered the lock. -/
structure Waits (P : Program) (gate : Nat → Except Failure Unit) (s : System) (t : Nat) (job : Job)
    (qs : List Request) : Prop where
  isJob : P.job? (s.current t) = some job
  passed : gate job.client = .ok ()
  plan : job.call.plan = .ok qs
  needs : qs ≠ []
  cleared : (s.shared.clients job.client).Cleared
  phase : s.threads.phase? t = none ∨
    ∃ notified, s.threads.phase? t = some (.asleep job.call.mode notified)

/-- A thread is inside and has some requests yet to make. -/
structure Works (P : Program) (s : System) (t : Nat) (job : Job) (qs : List Request) : Prop where
  isJob : P.job? (s.current t) = some job
  cleared : (s.shared.clients job.client).Cleared
  entered : s.current t ∈ s.order
  holds : s.threads.phase? t = some (.holding job.call.mode)
  reads : job.call.mode = .shared → ∀ q ∈ qs, ∃ name, q = .find name

/-- A thread has come as far as its stage says. -/
def Fits (P : Program) (gate : Nat → Except Failure Unit) (s : System) (t : Nat) : Stage → Prop
  | .resting => s.threads.phase? t = none
  | .waiting job qs => s.Waits P gate t job qs
  | .inside job _ qs => s.Works P t job qs

structure Sound (P : Program) (version : Int) (gate : Nat → Except Failure Unit) (c : Catalog)
    (s : System) : Prop where
  steady : s.shared.Steady P version gate
  balanced : s.threads.Balanced
  fits : ∀ t, s.Fits P gate t (s.workers t).stage
  entered : ∀ o ∈ s.order, o.index < (s.workers o.thread).finished.length ∨
    o = s.current o.thread ∧ (s.prospect o.thread).isSome
  nodup : s.order.Nodup
  idle : ∀ o result, s.result? o = some result → o ∈ s.order ∨ P.Idle gate o result
  results : (P.replay gate s.order c).1 = s.order.map s.foreseen
  outside : s.threads.holding .exclusive = ∅ → s.catalog = (P.replay gate s.order c).2
  within : ∀ t job reply qs, (s.workers t).stage = .inside job reply qs →
    (job.call.resume reply qs s.catalog).2 = (P.replay gate s.order c).2

section
variable {P : Program} {version : Int} {gate : Nat → Except Failure Unit} {c : Catalog}
  {s u : System} {t v : Nat}

theorem prospect_eq_none (h : ∀ job reply qs, (s.workers t).stage ≠ .inside job reply qs) :
    s.prospect t = none := by
  rw [prospect]
  split
  · next job reply qs hstage => exact absurd hstage (h job reply qs)
  · rfl

theorem prospect_resting (h : (s.workers t).stage = .resting) : s.prospect t = none := by
  rw [prospect, h]

theorem prospect_waiting {job : Job} {qs : List Request} (h : (s.workers t).stage = .waiting job qs) :
    s.prospect t = none := by
  rw [prospect, h]

theorem prospect_inside {job : Job} {reply : Except Failure Reply} {qs : List Request}
    (h : (s.workers t).stage = .inside job reply qs) :
    s.prospect t = some (job.call.resume reply qs s.catalog).1 := by
  rw [prospect, h]

theorem result?_current : s.result? (s.current t) = none :=
  List.getElem?_eq_none (Nat.le_refl _)

/-! ### What an event of one thread leaves alone -/

/-- Only one thread has gone on. The others have at most been notified, all results are kept, and no client
has forgotten what it knows. -/
structure ChangedBy (s : System) (t : Nat) (u : System) : Prop where
  others : ∀ v, v ≠ t → u.workers v = s.workers v
  grows : (s.workers t).finished <+: (u.workers t).finished
  clients : ∀ n, (s.shared.clients n).Cleared → (u.shared.clients n).Cleared
  order : ∀ o ∈ s.order, o ∈ u.order
  phases : ∀ v, v ≠ t → u.threads.phase? v = s.threads.phase? v ∨
    u.threads.phase? v = (s.threads.phase? v).map Phase.notify

namespace ChangedBy

theorem current (h : s.ChangedBy t u) (hv : v ≠ t) : u.current v = s.current v := by
  rw [System.current, System.current, h.others v hv]

theorem result?_others (h : s.ChangedBy t u) {o : Op} (ho : o.thread ≠ t) :
    u.result? o = s.result? o := by
  rw [result?, result?, h.others _ ho]

theorem result?_kept (h : s.ChangedBy t u) {o : Op} {result : Result} (ho : s.result? o = some result) :
    u.result? o = some result := by
  by_cases hthread : o.thread = t
  · rw [result?, hthread] at ho ⊢
    obtain ⟨hlt, hget⟩ := List.getElem?_eq_some_iff.mp ho
    rw [List.prefix_iff_getElem?.mp h.grows _ hlt, hget]
  · rw [h.result?_others hthread, ho]

/-- A thread that has no part in an event fits its stage as before. -/
theorem fits (h : s.ChangedBy t u) (hv : v ≠ t) {stage : Stage} (hs : s.Fits P gate v stage) :
    u.Fits P gate v stage := by
  have hcurrent := h.current hv
  have hphase := h.phases v hv
  cases stage with
  | resting =>
      have hnone : s.threads.phase? v = none := hs
      rcases hphase with hphase | hphase
      · exact hphase.trans hnone
      · rw [hnone] at hphase
        exact hphase
  | waiting job qs =>
      have hwaits : s.Waits P gate v job qs := hs
      refine ⟨hcurrent ▸ hwaits.isJob, hwaits.passed, hwaits.plan, hwaits.needs,
        h.clients _ hwaits.cleared, ?_⟩
      rcases hphase with hphase | hphase
      · rw [hphase]
        exact hwaits.phase
      · rw [hphase]
        rcases hwaits.phase with hnone | ⟨notified, hasleep⟩
        · exact .inl (by rw [hnone]; rfl)
        · exact .inr ⟨true, by rw [hasleep]; rfl⟩
  | inside job reply qs =>
      have hworks : s.Works P v job qs := hs
      refine ⟨hcurrent ▸ hworks.isJob, h.clients _ hworks.cleared,
        hcurrent ▸ h.order _ hworks.entered, ?_, hworks.reads⟩
      rcases hphase with hphase | hphase
      · exact hphase.trans hworks.holds
      · rw [hphase, hworks.holds]
        rfl

end ChangedBy

namespace Sound

theorem rests (hs : s.Sound P version gate c) (h : (s.workers t).stage = .resting) :
    s.threads.phase? t = none := by
  have hfits := hs.fits t
  rw [h] at hfits
  exact hfits

theorem waits (hs : s.Sound P version gate c) {job : Job} {qs : List Request}
    (h : (s.workers t).stage = .waiting job qs) : s.Waits P gate t job qs := by
  have hfits := hs.fits t
  rw [h] at hfits
  exact hfits

theorem works (hs : s.Sound P version gate c) {job : Job} {reply : Except Failure Reply}
    {qs : List Request} (h : (s.workers t).stage = .inside job reply qs) : s.Works P t job qs := by
  have hfits := hs.fits t
  rw [h] at hfits
  exact hfits

/-- While a writer is inside, no other thread is. -/
theorem alone (hs : s.Sound P version gate c) (ht : s.threads.phase? t = some (.holding .exclusive))
    (hv : v ≠ t) (job : Job) (reply : Except Failure Reply) (qs : List Request) :
    (s.workers v).stage ≠ .inside job reply qs :=
  fun hstage => hv (hs.balanced.only_writer ht (hs.works hstage).holds)

/-- The prospects of the others do not change: if the catalog does, a writer has done it. -/
theorem prospect_others (hs : s.Sound P version gate c) (h : s.ChangedBy t u)
    (hcatalog : u.catalog = s.catalog ∨ s.threads.phase? t = some (.holding .exclusive)) (hv : v ≠ t) :
    u.prospect v = s.prospect v := by
  rcases hcatalog with hcatalog | hwriter
  · rw [prospect, prospect, h.others v hv, hcatalog]
  · have hnone := hs.alone hwriter hv
    rw [prospect_eq_none hnone]
    rw [← h.others v hv] at hnone
    exact prospect_eq_none hnone

/-- What has been foreseen comes true for all who have entered the lock, if it does for one thread. -/
theorem foreseen_kept (hs : s.Sound P version gate c) (h : s.ChangedBy t u)
    (hcatalog : u.catalog = s.catalog ∨ s.threads.phase? t = some (.holding .exclusive))
    (hforeseen : ∀ result, s.prospect t = some result → u.foreseen (s.current t) = some result)
    {o : Op} (ho : o ∈ s.order) : u.foreseen o = s.foreseen o := by
  -- the operation is an earlier one of the thread, or the one it is at, or of another thread
  by_cases hthread : o.thread = t
  · rcases hs.entered o ho with hlt | ⟨hcurrent, hinside⟩
    · have hresult : s.result? o = some (s.workers o.thread).finished[o.index] :=
        List.getElem?_eq_getElem hlt
      rw [foreseen, foreseen, hresult, h.result?_kept hresult]
      rfl
    · rw [hthread] at hcurrent hinside
      obtain ⟨result, hresult⟩ := Option.isSome_iff_exists.mp hinside
      rw [hcurrent, hforeseen result hresult, foreseen, result?_current]
      exact hresult.symm
  · rw [foreseen, foreseen, h.result?_others hthread, hs.prospect_others h hcatalog hthread]

theorem entered_kept (hs : s.Sound P version gate c) (h : s.ChangedBy t u)
    (hcatalog : u.catalog = s.catalog ∨ s.threads.phase? t = some (.holding .exclusive))
    (hforeseen : ∀ result, s.prospect t = some result → u.foreseen (s.current t) = some result)
    {o : Op} (ho : o ∈ s.order) : o.index < (u.workers o.thread).finished.length ∨
      o = u.current o.thread ∧ (u.prospect o.thread).isSome := by
  by_cases hthread : o.thread = t
  · rcases hs.entered o ho with hlt | ⟨hcurrent, hinside⟩
    · rw [hthread] at hlt ⊢
      exact .inl (Nat.lt_of_lt_of_le hlt h.grows.length_le)
    · rw [hthread] at hcurrent hinside ⊢
      obtain ⟨result, hresult⟩ := Option.isSome_iff_exists.mp hinside
      have hafter := hforeseen result hresult
      by_cases hlt : o.index < (u.workers t).finished.length
      · exact .inl hlt
      · have hnone : u.result? o = none := by
          rw [result?, hthread]
          exact List.getElem?_eq_none (Nat.not_lt.mp hlt)
        -- no result has been added, so the thread is still at the same operation
        have hindex : o.index = (s.workers t).finished.length := congrArg Op.index hcurrent
        have hlength : (u.workers t).finished.length = (s.workers t).finished.length :=
          Nat.le_antisymm (hindex ▸ Nat.not_lt.mp hlt) h.grows.length_le
        rw [← hcurrent, foreseen, hnone, Option.none_or, hthread] at hafter
        refine .inr ⟨?_, by rw [hafter]; rfl⟩
        rw [hcurrent, current, current, hlength]
  · rw [h.others _ hthread, h.current hthread, hs.prospect_others h hcatalog hthread]
    exact hs.entered o ho

theorem current_not_entered (hs : s.Sound P version gate c) (h : s.prospect t = none) :
    s.current t ∉ s.order := by
  intro hentered
  rcases hs.entered _ hentered with hlt | ⟨-, hinside⟩
  · exact Nat.lt_irrefl _ hlt
  · rw [current, h] at hinside
    exact Bool.false_ne_true hinside

/-- An event by which nobody enters the lock keeps the invariant, if it does so for its own thread. -/
theorem carry (hs : s.Sound P version gate c) (h : s.ChangedBy t u) (horder : u.order = s.order)
    (hsteady : u.shared.Steady P version gate) (hbalanced : u.threads.Balanced)
    (hcatalog : u.catalog = s.catalog ∨ s.threads.phase? t = some (.holding .exclusive))
    (hfits : u.Fits P gate t (u.workers t).stage)
    (hforeseen : ∀ result, s.prospect t = some result → u.foreseen (s.current t) = some result)
    (hidle : ∀ o result, o.thread = t → u.result? o = some result →
      s.result? o = some result ∨ o ∈ s.order ∨ P.Idle gate o result)
    (houtside : u.threads.holding .exclusive = ∅ → u.catalog = (P.replay gate s.order c).2)
    (hwithin : ∀ job reply qs, (u.workers t).stage = .inside job reply qs →
      (job.call.resume reply qs u.catalog).2 = (P.replay gate s.order c).2) :
    u.Sound P version gate c := by
  refine ⟨hsteady, hbalanced, fun v => ?_, fun o ho => ?_, horder ▸ hs.nodup,
    fun o result ho => ?_, ?_, ?_, fun v job reply qs hv => ?_⟩
  · by_cases hv : v = t
    · exact hv ▸ hfits
    · rw [h.others v hv]
      exact h.fits hv (hs.fits v)
  · exact hs.entered_kept h hcatalog hforeseen (horder ▸ ho)
  · rw [horder]
    by_cases hthread : o.thread = t
    · rcases hidle o result hthread ho with hbefore | hnew
      · exact hs.idle o result hbefore
      · exact hnew
    · rw [h.result?_others hthread] at ho
      exact hs.idle o result ho
  · rw [horder, hs.results]
    exact (List.map_congr_left fun o ho => hs.foreseen_kept h hcatalog hforeseen ho).symm
  · rw [horder]
    exact houtside
  · rw [horder]
    by_cases hvt : v = t
    · exact hwithin job reply qs (hvt ▸ hv)
    · rw [h.others v hvt] at hv
      rcases hcatalog with hcatalog | hwriter
      · rw [hcatalog]
        exact hs.within v job reply qs hv
      · exact absurd hv (hs.alone hwriter hvt job reply qs)

end Sound

end

end CatalogSteward.Lifecycle.System
