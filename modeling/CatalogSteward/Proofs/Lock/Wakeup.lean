import CatalogSteward.Proofs.Lock.Balance

/-!
# No wake-up is lost

A thread that sleeps at a lock and has not been notified would not be admitted if it woke now. As long as
no wait is aborted, every event keeps this: whoever takes the lock shuts nobody in who was shut out, a
thread goes to sleep only when it has just been refused, and a release that could let a sleeper in
notifies all of them. So a lock that nobody holds never leaves its waiting threads to sleep: one of them
has been notified, and takes the lock as soon as it wakes.
-/

namespace CatalogSteward

namespace Lock

variable {l after : Lock} {mode other : LockMode}

/-- A thread that arrives opens the lock to nobody. -/
theorem admits_arrive (h : l.admits other = false) : (l.arrive mode).admits other = false := by
  cases mode with
  | shared => exact h
  | exclusive => cases other <;> simp_all [admits, arrive]

/-- A thread that takes the lock opens it to nobody. -/
theorem admits_take (h : l.admits other = false) : (l.take mode).admits other = false := by
  cases mode <;> cases other <;> simp_all [admits, take]

/-- A release that wakes nobody leaves a reader inside, and so opens the lock to nobody. -/
theorem admits_release (hrelease : l.release mode = .ok after) (hwakes : after.wakes mode = false)
    (h : l.admits other = false) : after.admits other = false := by
  cases mode with
  | exclusive => cases hwakes
  | shared =>
      simp only [release] at hrelease
      split_ifs at hrelease
      obtain rfl := Except.ok.inj hrelease
      cases other with
      | shared => exact h
      | exclusive => simp_all [admits, wakes]

end Lock

namespace Threads

def Event.isAbort : Event → Bool
  | .abort _ => true
  | _ => false

/-- No thread that sleeps without having been notified would be admitted. -/
def Attended (s : Threads) : Prop :=
  ∀ t mode, s.phase? t = some (.asleep mode false) → s.lock.admits mode = false

theorem attended_start (name : String) : (start name).Attended := by
  intro t mode ht
  cases ht

/-- No thread that sleeps in the given mode without having been notified would be admitted. -/
def AttendsTo (s : Threads) (mode : LockMode) : Prop :=
  ∀ t, s.phase? t = some (.asleep mode false) → s.lock.admits mode = false

/-- A thread that makes an attempt sleeps afterwards only if it has been refused; of the others nothing
but their being refused matters. -/
theorem attendsTo_attempt {s : Threads} {t : Nat} {mode other : LockMode} {old : Phase}
    (ht : s.phase? t = some old)
    (hothers : ∀ u, u ≠ t → s.phase? u = some (.asleep other false) → s.lock.admits other = false) :
    (s.attempt t mode).AttendsTo other := by
  intro u hu
  rw [phase?_attempt ht] at hu
  rw [lock_attempt]
  by_cases hself : u = t
  · rw [if_pos hself] at hu
    split_ifs at hu with hadmits
    · cases hu
    · obtain ⟨rfl, -⟩ := Phase.asleep.inj (Option.some.inj hu)
      rw [if_neg hadmits]
      exact Bool.eq_false_iff.mpr hadmits
  · rw [if_neg hself] at hu
    have hrefused := hothers u hself hu
    split_ifs
    · exact Lock.admits_take hrefused
    · exact hrefused

theorem AttendsTo.left {s : Threads} {other : LockMode} (hs : s.AttendsTo other) {t : Nat} {mode : LockMode}
    {lock : Lock} (hl : s.lock.release mode = .ok lock) : (s.left t mode lock).AttendsTo other := by
  intro u hu
  rw [phase?_left] at hu
  rw [lock_left]
  split_ifs at hu with hself hwakes
  · -- everybody who sleeps has just been notified
    cases hphase : s.phase? u with
    | none => rw [hphase] at hu; cases hu
    | some phase => rw [hphase] at hu; cases phase <;> simp [Phase.notify] at hu
  · exact Lock.admits_release hl (Bool.eq_false_iff.mpr hwakes) (hs u hu)

/-- Writers are attended to through aborted waits as well: they wait for those inside alone. -/
theorem AttendsTo.step {s u : Threads} {e : Event} {other : LockMode} (hs : s.AttendsTo other) (h : Step s e u)
    (he : e.isAbort = false ∨ other = .exclusive) : u.AttendsTo other := by
  cases h with
  | @acquire t mode ht =>
      have hasleep : (s.arrived t mode).phase? t = some (.asleep mode false) := by
        rw [phase?_arrived ht, if_pos rfl]
      refine attendsTo_attempt hasleep fun u hne hu => ?_
      rw [phase?_arrived ht, if_neg hne] at hu
      exact Lock.admits_arrive (hs u hu)
  | wake ht => exact attendsTo_attempt ht fun u _ hu => hs u hu
  | release _ hl => exact hs.left hl
  | @abort t mode notified ht =>
      obtain rfl := he.resolve_left (by simp [Event.isAbort])
      intro u hu
      rw [phase?_remove] at hu
      split_ifs at hu with hself
      have hrefused := hs u hu
      cases mode <;> exact hrefused

theorem Attended.step {s u : Threads} {e : Event} (hs : s.Attended) (h : Step s e u)
    (he : e.isAbort = false) : u.Attended :=
  fun t mode => AttendsTo.step (fun t => hs t mode) h (.inl he) t

theorem Attended.run {s u : Threads} {es : List Event} (hs : s.Attended)
    (hes : ∀ e ∈ es, e.isAbort = false) (h : s.run? es = some u) : u.Attended := by
  induction es generalizing s with
  | nil =>
      obtain rfl := Option.some.inj h
      exact hs
  | cons e es ih =>
      obtain ⟨v, hv, h⟩ := Option.bind_eq_some_iff.mp h
      have hstep := hs.step (step?_sound hv) (hes e List.mem_cons_self)
      exact ih hstep (fun e he => hes e (List.mem_cons_of_mem _ he)) h

/-! ### Who keeps a sleeper out -/

theorem Balanced.refuses_exclusive {s : Threads} (hs : s.Balanced)
    (h : s.lock.admits .exclusive = false) :
    (s.holding .exclusive).Nonempty ∨ (s.holding .shared).Nonempty := by
  cases hw : s.lock.writer with
  | true => exact .inl (hs.writer_iff.mp hw)
  | false =>
      right
      rw [← Set.encard_pos, hs.readers_eq]
      have hreaders : s.lock.readers ≠ 0 := by simpa [Lock.admits, hw] using h
      exact_mod_cast Nat.pos_of_ne_zero hreaders

theorem Balanced.refuses_shared {s : Threads} (hs : s.Balanced) (h : s.lock.admits .shared = false) :
    (s.holding .exclusive).Nonempty ∨ (s.blocked .exclusive).Nonempty := by
  cases hw : s.lock.writer with
  | true => exact .inl (hs.writer_iff.mp hw)
  | false =>
      right
      rw [← Set.encard_pos, hs.waiting_eq]
      have hwaiting : s.lock.writersWaiting ≠ 0 := by simpa [Lock.admits, hw] using h
      exact_mod_cast Nat.pos_of_ne_zero hwaiting

/-- A thread that is admitted takes the lock when it wakes, and nobody else has to do anything. -/
theorem wake_admitted {s : Threads} {t : Nat} {mode : LockMode} {notified : Bool}
    (ht : s.phase? t = some (.asleep mode notified)) (h : s.lock.admits mode = true) :
    ∃ u, s.step? (.wake t) = some u ∧ u.phase? t = some (.holding mode) := by
  refine ⟨s.attempt t mode, (Step.wake ht).step?, ?_⟩
  rw [phase?_attempt ht, if_pos rfl, if_pos h]

/-- At a lock that nobody holds, a waiting writer is admitted, or else a waiting reader is. -/
theorem Balanced.admits_waiting {s : Threads} (hs : s.Balanced) (hwriter : s.holding .exclusive = ∅)
    (hreaders : s.holding .shared = ∅) {mode : LockMode} (hwaits : (s.blocked mode).Nonempty) :
    ∃ waiting, (s.blocked waiting).Nonempty ∧ s.lock.admits waiting = true := by
  have hexclusive : s.lock.admits .exclusive = true := by
    refine Bool.not_eq_false _ ▸ fun h => ?_
    rcases hs.refuses_exclusive h with hnone | hnone
    · exact Set.not_nonempty_empty (hwriter ▸ hnone)
    · exact Set.not_nonempty_empty (hreaders ▸ hnone)
  by_cases hwriters : (s.blocked .exclusive).Nonempty
  · exact ⟨.exclusive, hwriters, hexclusive⟩
  · refine ⟨mode, hwaits, ?_⟩
    cases mode with
    | exclusive => exact hexclusive
    | shared =>
        refine Bool.not_eq_false _ ▸ fun h => ?_
        rcases hs.refuses_shared h with hnone | hnone
        · exact Set.not_nonempty_empty (hwriter ▸ hnone)
        · exact hwriters hnone

/-- In every state that threads reach without aborting a wait: a writer that sleeps and has not been
notified is kept out by a thread inside, and such a reader by a writer that is inside or waits. So when
nobody holds the lock and somebody waits, one that waits has been notified and is admitted: when it wakes
it takes the lock, with no event in between. -/
theorem waiting_threads_are_notified {name : String} {es : List Event} {s : Threads}
    (hes : ∀ e ∈ es, e.isAbort = false) (h : (start name).run? es = some s) :
    (∀ t, s.phase? t = some (.asleep .exclusive false) →
      (s.holding .exclusive).Nonempty ∨ (s.holding .shared).Nonempty) ∧
    (∀ t, s.phase? t = some (.asleep .shared false) →
      (s.holding .exclusive).Nonempty ∨ (s.blocked .exclusive).Nonempty) ∧
    (s.holding .exclusive = ∅ → s.holding .shared = ∅ → (∃ mode, (s.blocked mode).Nonempty) →
      ∃ t mode, s.phase? t = some (.asleep mode true) ∧ s.lock.admits mode = true ∧
        ∃ u, s.step? (.wake t) = some u ∧ u.phase? t = some (.holding mode)) := by
  have hbalanced := (balanced_start name).run h
  have hattended := (attended_start name).run hes h
  refine ⟨fun t ht => ?_, fun t ht => ?_, ?_⟩
  · exact hbalanced.refuses_exclusive (hattended t .exclusive ht)
  · exact hbalanced.refuses_shared (hattended t .shared ht)
  · rintro hwriter hreaders ⟨_, hwaits⟩
    obtain ⟨mode, ⟨t, notified, ht⟩, hadmits⟩ := hbalanced.admits_waiting hwriter hreaders hwaits
    cases notified with
    | false => exact absurd hadmits (Bool.eq_false_iff.mp (hattended t mode ht))
    | true => exact ⟨t, mode, ht, hadmits, wake_admitted ht hadmits⟩

/-- A writer and a reader sleep while a writer is inside; when it has left, the other writer has been
notified and is admitted, though the reader is not. -/
theorem waiting_writer_is_notified :
    ∃ s, (start "db").run? [.acquire 0 .exclusive, .acquire 1 .shared, .acquire 2 .exclusive, .wake 1,
        .release 0] = some s ∧
      s.phases = [(1, .asleep .shared true), (2, .asleep .exclusive true)] ∧
      ∃ t mode, s.phase? t = some (.asleep mode true) ∧ s.lock.admits mode = true ∧
        ∃ u, s.step? (.wake t) = some u ∧ u.phase? t = some (.holding mode) := by
  have hrun : (start "db").run? [.acquire 0 .exclusive, .acquire 1 .shared, .acquire 2 .exclusive, .wake 1,
      .release 0] =
        some ⟨⟨"db", 0, false, 1⟩, [(1, .asleep .shared true), (2, .asleep .exclusive true)]⟩ := by
    decide
  have hbalanced := balanced_start "db"
  obtain ⟨-, -, hnotified⟩ := waiting_threads_are_notified (by decide) hrun
  refine ⟨_, hrun, rfl, hnotified ?_ ?_ ⟨.exclusive, 2, true, rfl⟩⟩
  all_goals
    refine Set.eq_empty_of_forall_notMem fun t ht => ?_
    have hinside := (phase?_eq_some_iff (hbalanced.run hrun).distinct).mp ht
    simp at hinside

end Threads

end CatalogSteward
