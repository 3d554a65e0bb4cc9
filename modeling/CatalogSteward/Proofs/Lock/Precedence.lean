import CatalogSteward.Proofs.Lock.Abort

/-!
# Writers go before readers

While a writer waits, readers are refused: those that come, and those that have slept and are woken. So the
first thread that is let in after a writer has begun to wait is a writer, in whatever order threads come, wake
and leave. Until then the readers inside can only leave; when the last of them has left and no writer is
inside, every writer that looks at the lock takes it, and every reader that does so sleeps.
-/

namespace CatalogSteward.Threads

variable {s u : Threads} {e : Event} {es : List Event} {t v : Nat} {mode : LockMode}

/-- The acquisition that an event completes, if it lets its thread in. -/
def Event.acquired? (e : Event) (after : Threads) : Option (Nat × LockMode) :=
  match after.phase? e.thread with
  | some (.holding mode) => some (e.thread, mode)
  | _ => none

/-- The acquisitions that complete in a run, in order. -/
def acquisitions (s : Threads) : List Event → List (Nat × LockMode)
  | [] => []
  | e :: es =>
    match s.step? e with
    | none => []
    | some u => (e.acquired? u).toList ++ u.acquisitions es

theorem acquired?_eq_some_iff :
    e.acquired? u = some (v, mode) ↔ e.thread = v ∧ u.phase? v = some (.holding mode) := by
  unfold Event.acquired?
  constructor
  · intro h
    split at h
    · next inside hinside =>
        obtain ⟨rfl, rfl⟩ := Prod.mk.inj (Option.some.inj h)
        exact ⟨rfl, hinside⟩
    · cases h
  · rintro ⟨rfl, hinside⟩
    rw [hinside]

theorem Step.acquisitions_cons (h : Step s e u) :
    s.acquisitions (e :: es) = (e.acquired? u).toList ++ u.acquisitions es := by
  rw [acquisitions, h.step?]

/-! ### Who is let in -/

/-- An attempt succeeds in the mode that it is made in, if the lock admits that. -/
theorem admits_of_attempt {old : Phase} {wanted : LockMode} (ht : s.phase? t = some old)
    (h : (s.attempt t wanted).phase? t = some (.holding mode)) :
    wanted = mode ∧ s.lock.admits wanted = true := by
  rw [phase?_attempt ht, if_pos rfl] at h
  by_cases hadmits : s.lock.admits wanted = true
  · rw [if_pos hadmits] at h
    exact ⟨Phase.holding.inj (Option.some.inj h), hadmits⟩
  · rw [if_neg hadmits] at h
    cases h

/-- A thread that an event lets in did not hold the lock before, and the lock admitted it then. -/
theorem Step.entered (h : Step s e u) (hinside : u.phase? e.thread = some (.holding mode)) :
    s.phase? e.thread ≠ some (.holding mode) ∧ s.lock.admits mode = true := by
  cases e with
  | acquire t wanted =>
      cases h with
      | acquire ht =>
          have hasleep : (s.arrived t wanted).phase? t = some (.asleep wanted false) := by
            rw [phase?_arrived ht, if_pos rfl]
          obtain ⟨rfl, hadmits⟩ := admits_of_attempt hasleep hinside
          refine ⟨fun hbefore => ?_, ?_⟩
          · cases ht.symm.trans hbefore
          · cases wanted <;> exact hadmits
  | wake t =>
      cases h with
      | wake ht =>
          obtain ⟨rfl, hadmits⟩ := admits_of_attempt ht hinside
          exact ⟨fun hbefore => (by cases ht.symm.trans hbefore), hadmits⟩
  | release t => cases h.phase?_release.2.symm.trans hinside
  | abort t =>
      cases h with
      | abort ht =>
          change (Threads.remove _ t).phase? t = _ at hinside
          rw [phase?_remove, if_pos rfl] at hinside
          cases hinside

/-- The acquisitions that complete are those of the threads that come to hold the lock. -/
theorem Step.acquired?_iff (h : Step s e u) :
    e.acquired? u = some (v, mode) ↔
      s.phase? v ≠ some (.holding mode) ∧ u.phase? v = some (.holding mode) := by
  rw [acquired?_eq_some_iff]
  constructor
  · rintro ⟨rfl, hinside⟩
    exact ⟨(h.entered hinside).1, hinside⟩
  · rintro ⟨hbefore, hinside⟩
    refine ⟨?_, hinside⟩
    by_contra hne
    exact hbefore ((h.holding_others (Ne.symm hne) mode).mp hinside)

/-- While a writer waits, the lock admits no reader. -/
theorem Balanced.refuses_readers (hs : s.Balanced) (ht : t ∈ s.blocked .exclusive) :
    s.lock.admits .shared = false := by
  have hpos := hs.waiting_pos ht
  have hwaiting : (s.lock.writersWaiting == 0) = false := by simpa using hpos.ne'
  rw [Lock.admits, hwaiting, Bool.and_false]

/-- While a writer waits, only writers are let in. -/
theorem Balanced.lets_in_writers (hs : s.Balanced) (ht : t ∈ s.blocked .exclusive) (h : Step s e u)
    {a : Nat × LockMode} (ha : e.acquired? u = some a) : a.2 = .exclusive := by
  obtain ⟨v, mode⟩ := a
  obtain ⟨rfl, hinside⟩ := acquired?_eq_some_iff.mp ha
  cases mode with
  | exclusive => rfl
  | shared => cases (hs.refuses_readers ht).symm.trans (h.entered hinside).2

/-- A writer waits until it is let in, unless its wait is aborted. -/
theorem Step.keeps_waiting (h : Step s e u) (ht : t ∈ s.blocked .exclusive) (he : e ≠ .abort t) :
    t ∈ u.blocked .exclusive ∨ e.acquired? u = some (t, .exclusive) := by
  obtain ⟨notified, hasleep⟩ := ht
  by_cases hself : t = e.thread
  · subst hself
    cases e with
    | acquire t wanted =>
        obtain ⟨hnone⟩ := h
        cases hnone.symm.trans hasleep
    | wake t =>
        obtain ⟨wanted, _, hbefore, hafter⟩ := h.phase?_wake
        obtain ⟨rfl, -⟩ := Phase.asleep.inj (Option.some.inj (hbefore.symm.trans hasleep))
        rcases hafter with hinside | hrefused
        · exact .inr (acquired?_eq_some_iff.mpr ⟨rfl, hinside⟩)
        · exact .inl ⟨false, hrefused⟩
    | release t =>
        obtain ⟨_, hinside⟩ := h.phase?_release.1
        cases hinside.symm.trans hasleep
    | abort t => exact absurd rfl he
  · left
    rcases h.phase?_others hself with hsame | hnotified
    · exact ⟨notified, hsame.trans hasleep⟩
    · exact ⟨true, by rw [hnotified, hasleep]; rfl⟩

/-! ### Runs -/

/-- Whatever happens once a writer waits, the first thread that is let in is a writer. -/
theorem Balanced.first_acquisition (hs : s.Balanced) (ht : t ∈ s.blocked .exclusive)
    (hrun : s.run? es = some u) (habort : .abort t ∉ es) : ∀ a ∈ (s.acquisitions es).head?, a.2 = .exclusive := by
  induction es generalizing s with
  | nil => simp [acquisitions]
  | cons e es ih =>
      obtain ⟨v, hv, hrest⟩ := Option.bind_eq_some_iff.mp hrun
      have hstep := step?_sound hv
      have hother : e ≠ .abort t := fun h => habort (h ▸ List.mem_cons_self)
      rw [hstep.acquisitions_cons]
      cases hacquired : e.acquired? v with
      | some a =>
          rintro _ ⟨⟩
          exact hs.lets_in_writers ht hstep hacquired
      | none =>
          have hwaits : t ∈ v.blocked .exclusive := by
            refine (hstep.keeps_waiting ht hother).resolve_right fun h => ?_
            cases hacquired.symm.trans h
          exact ih (hs.step hstep) hwaits hrest fun h => habort (List.mem_cons_of_mem _ h)

/-- Until a writer is let in nobody is: the writer goes on waiting, and of the readers inside some may leave. -/
theorem Balanced.unacquired (hs : s.Balanced) (ht : t ∈ s.blocked .exclusive) (hrun : s.run? es = some u)
    (habort : .abort t ∉ es) (hnone : ∀ a ∈ s.acquisitions es, a.2 ≠ .exclusive) :
    s.acquisitions es = [] ∧ t ∈ u.blocked .exclusive ∧ u.holding .shared ⊆ s.holding .shared := by
  induction es generalizing s with
  | nil =>
      obtain rfl := Option.some.inj hrun
      exact ⟨rfl, ht, subset_rfl⟩
  | cons e es ih =>
      obtain ⟨v, hv, hrest⟩ := Option.bind_eq_some_iff.mp hrun
      have hstep := step?_sound hv
      have hother : e ≠ .abort t := fun h => habort (h ▸ List.mem_cons_self)
      rw [hstep.acquisitions_cons] at hnone ⊢
      have hacquired : e.acquired? v = none := by
        refine Option.eq_none_iff_forall_ne_some.mpr fun a ha => ?_
        exact hnone a (by simp [ha]) (hs.lets_in_writers ht hstep ha)
      have hwaits : t ∈ v.blocked .exclusive := by
        refine (hstep.keeps_waiting ht hother).resolve_right fun h => ?_
        cases hacquired.symm.trans h
      have hleft : v.holding .shared ⊆ s.holding .shared := by
        intro r hr
        by_contra hnew
        cases hacquired.symm.trans (hstep.acquired?_iff.mpr ⟨hnew, hr⟩)
      rw [hacquired] at hnone ⊢
      obtain ⟨hempty, hlast, hsubset⟩ :=
        ih (hs.step hstep) hwaits hrest (fun h => habort (List.mem_cons_of_mem _ h)) hnone
      exact ⟨hempty, hlast, hsubset.trans hleft⟩

theorem Balanced.readers_le (hs : s.Balanced) (hu : u.Balanced) (h : u.holding .shared ⊆ s.holding .shared) :
    u.lock.readers ≤ s.lock.readers := by
  have hcard := Set.encard_le_encard h
  rw [hs.readers_eq, hu.readers_eq] at hcard
  exact_mod_cast hcard

/-- From any moment at which a writer waits, in every state that threads can reach, and for whatever they do
from then on except that the wait of this writer is aborted: the first acquisition that completes is an
exclusive one. As long as none has completed, no acquisition has at all, the writer still waits, the readers
inside are among those that were, and the next acquisition, whichever thread makes it, can only be an exclusive
one. Once no reader and no writer is inside, every writer that waits takes the lock when it wakes. -/
theorem waiting_writers_are_not_overtaken {name : String} {before es : List Event} {s u : Threads} {t : Nat}
    {notified : Bool} (hreach : (start name).run? before = some s)
    (ht : s.phase? t = some (.asleep .exclusive notified)) (hrun : s.run? es = some u) (habort : .abort t ∉ es) :
    (∀ a ∈ (s.acquisitions es).head?, a.2 = .exclusive) ∧
      ((∀ a ∈ s.acquisitions es, a.2 ≠ .exclusive) →
        s.acquisitions es = [] ∧
        (∃ notified, u.phase? t = some (.asleep .exclusive notified)) ∧
        u.holding .shared ⊆ s.holding .shared ∧ u.lock.readers ≤ s.lock.readers ∧
        (∀ e v, u.step? e = some v → ∀ r mode,
          u.phase? r ≠ some (.holding mode) → v.phase? r = some (.holding mode) → mode = .exclusive) ∧
        (u.lock.readers = 0 → u.lock.writer = false → ∀ r ∈ u.blocked .exclusive,
          ∃ v, u.step? (.wake r) = some v ∧ v.phase? r = some (.holding .exclusive))) := by
  have hbalanced := (balanced_start name).run hreach
  have hwaits : t ∈ s.blocked .exclusive := ⟨notified, ht⟩
  refine ⟨hbalanced.first_acquisition hwaits hrun habort, fun hnone => ?_⟩
  obtain ⟨hempty, hlast, hsubset⟩ := hbalanced.unacquired hwaits hrun habort hnone
  have hafter := hbalanced.run hrun
  refine ⟨hempty, hlast, hsubset, hbalanced.readers_le hafter hsubset, ?_, ?_⟩
  · intro e v hstep r mode hnew hinside
    have hacquired := (step?_sound hstep).acquired?_iff.mpr ⟨hnew, hinside⟩
    exact hafter.lets_in_writers hlast (step?_sound hstep) hacquired
  · rintro hreaders hwriter r ⟨_, hr⟩
    exact wake_admitted hr (by rw [Lock.admits, hreaders, hwriter]; rfl)

/-- A reader has slept since a writer waits, and another one comes. The last reader inside leaves and notifies
both sleepers; the one that has slept wakes first, and sleeps again. Then the writer wakes and is let in. -/
theorem waiting_writers_are_not_overtaken_woken :
    ∃ s u, (start "db").run? [.acquire 0 .shared, .acquire 1 .exclusive, .acquire 2 .shared] = some s ∧
      s.phase? 1 = some (.asleep .exclusive false) ∧
      s.run? [.acquire 3 .shared, .release 0, .wake 2] = some u ∧
      u.phases = [(1, .asleep .exclusive true), (2, .asleep .shared false), (3, .asleep .shared true)] ∧
      u.lock.readers ≤ s.lock.readers ∧
      ∃ v, u.step? (.wake 1) = some v ∧ v.phase? 1 = some (.holding .exclusive) := by
  have hreach : (start "db").run? [.acquire 0 .shared, .acquire 1 .exclusive, .acquire 2 .shared] =
      some ⟨⟨"db", 1, false, 1⟩, [(0, .holding .shared), (1, .asleep .exclusive false),
        (2, .asleep .shared false)]⟩ := by
    decide
  have hrun : run? ⟨⟨"db", 1, false, 1⟩, [(0, .holding .shared), (1, .asleep .exclusive false),
      (2, .asleep .shared false)]⟩ [.acquire 3 .shared, .release 0, .wake 2] =
        some ⟨⟨"db", 0, false, 1⟩, [(1, .asleep .exclusive true), (2, .asleep .shared false),
          (3, .asleep .shared true)]⟩ := by
    decide
  obtain ⟨-, hwindow⟩ := waiting_writers_are_not_overtaken (t := 1) hreach rfl hrun (by decide)
  obtain ⟨-, -, -, hreaders, -, henters⟩ := hwindow (by decide)
  exact ⟨_, _, hreach, rfl, hrun, rfl, hreaders, henters rfl rfl 1 ⟨true, rfl⟩⟩

end CatalogSteward.Threads
