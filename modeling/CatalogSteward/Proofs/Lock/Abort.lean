import CatalogSteward.Proofs.Lock.Wakeup

/-!
# Waits that are aborted

A writer whose wait is aborted is gone from the table of threads and from the counters. Nothing else
changes, and nobody is notified. No other writer misses anything by that, for a writer is kept out by the
threads inside alone. A reader may: if the aborted writer was the only one that waited and none is inside,
then every reader that has gone to sleep since the last notification sleeps on, though it would be admitted.
-/

namespace CatalogSteward

/-- A writer that leaves undoes its arrival. -/
theorem Lock.arrive_leave {l : Lock} (h : 0 < l.writersWaiting) : (l.leave .exclusive).arrive .exclusive = l := by
  obtain ⟨name, readers, writer, waiting⟩ := l
  change Lock.mk name readers writer (waiting - 1 + 1) = _
  rw [Nat.sub_add_cancel h]

namespace Threads

variable {s : Threads} {t : Nat}

theorem phase?_abort {notified : Bool} (ht : s.phase? t = some (.asleep .exclusive notified)) (v : Nat) :
    (s.abort t).phase? v = if v = t then none else s.phase? v := by
  rw [abort, ht]
  exact phase?_remove _ t v

theorem lock_abort {notified : Bool} (ht : s.phase? t = some (.asleep .exclusive notified)) :
    (s.abort t).lock = s.lock.leave .exclusive := by
  rw [abort, ht]
  rfl

theorem step?_abort {notified : Bool} (ht : s.phase? t = some (.asleep .exclusive notified)) :
    s.step? (.abort t) = some (s.abort t) := by
  simp only [step?, ht]

/-- Whatever waits are aborted, no writer that sleeps without having been notified would be admitted. -/
theorem attendsTo_writers {name : String} {es : List Event} (h : (start name).run? es = some s) :
    s.AttendsTo .exclusive :=
  run?_induction (motive := fun s => s.AttendsTo .exclusive) (fun hstep hs => hs.step hstep (.inr rfl))
    (fun t => attended_start name t .exclusive) h

/-- A writer that waits is counted. -/
theorem Balanced.waiting_pos (hs : s.Balanced) (ht : t ∈ s.blocked .exclusive) : 0 < s.lock.writersWaiting := by
  have hpos : 0 < (s.blocked .exclusive).encard := Set.encard_pos.mpr ⟨t, ht⟩
  rw [hs.waiting_eq] at hpos
  exact_mod_cast hpos

/-- Readers are admitted once a waiting writer is gone, if it was the only one that waited and none is
inside. -/
theorem Balanced.admits_shared_leave (hs : s.Balanced) (ht : t ∈ s.blocked .exclusive) :
    (s.lock.leave .exclusive).admits .shared = true ↔
      s.holding .exclusive = ∅ ∧ s.blocked .exclusive = {t} := by
  have hinside : s.lock.writer = false ↔ s.holding .exclusive = ∅ := by
    rw [← Set.not_nonempty_iff_eq_empty, ← hs.writer_iff, Bool.not_eq_true]
  have halone : s.lock.writersWaiting - 1 = 0 ↔ s.blocked .exclusive = {t} := by
    have hpos := hs.waiting_pos ht
    have hone : s.lock.writersWaiting = 1 ↔ (s.blocked .exclusive).encard = 1 := by
      rw [hs.waiting_eq]
      exact Nat.cast_eq_one.symm
    rw [show s.lock.writersWaiting - 1 = 0 ↔ s.lock.writersWaiting = 1 by omega, hone, Set.encard_eq_one]
    constructor
    · rintro ⟨x, hx⟩
      rw [hx] at ht ⊢
      rw [Set.mem_singleton_iff.mp ht]
    · exact fun h => ⟨t, h⟩
  rw [← hinside, ← halone]
  simp [Lock.admits, Lock.leave]

/-- In every state that a run reaches, aborted waits included: when the wait of a writer is aborted, the
counters are those of the lock before it came, they tell how many of the other threads hold the lock or
wait for it, and the other threads stay as they are. Of these, the ones that sleep without having been
notified and would be admitted are the readers, if no writer is inside and no other one waits. -/
theorem aborted_writer_is_uncounted {name : String} {es : List Event} {s : Threads} {t : Nat} {notified : Bool}
    (h : (start name).run? es = some s) (ht : s.phase? t = some (.asleep .exclusive notified)) :
    ∃ u, s.step? (.abort t) = some u ∧
      s.lock = u.lock.arrive .exclusive ∧
      (u.holding .shared).encard = u.lock.readers ∧
      (u.lock.writer = true ↔ (u.holding .exclusive).Nonempty) ∧
      (u.blocked .exclusive).encard = u.lock.writersWaiting ∧
      u.phase? t = none ∧ (∀ v, v ≠ t → u.phase? v = s.phase? v) ∧
      ∀ v mode, u.phase? v = some (.asleep mode false) →
        (u.lock.admits mode = true ↔
          mode = .shared ∧ s.holding .exclusive = ∅ ∧ s.blocked .exclusive = {t}) := by
  have hbalanced := (balanced_start name).run h
  have hwaits : t ∈ s.blocked .exclusive := ⟨notified, ht⟩
  have hpos := hbalanced.waiting_pos hwaits
  have hafter : (s.abort t).Balanced := hbalanced.step (step?_sound (step?_abort ht))
  have hwriters : (s.abort t).AttendsTo .exclusive :=
    (attendsTo_writers h).step (step?_sound (step?_abort ht)) (.inr rfl)
  refine ⟨s.abort t, step?_abort ht, ?_, hafter.readers_eq, hafter.writer_iff, hafter.waiting_eq, ?_, ?_, ?_⟩
  · rw [lock_abort ht, Lock.arrive_leave hpos]
  · rw [phase?_abort ht, if_pos rfl]
  · intro v hv
    rw [phase?_abort ht, if_neg hv]
  · intro v mode hv
    cases mode with
    | shared =>
        rw [lock_abort ht, hbalanced.admits_shared_leave hwaits]
        exact (and_iff_right rfl).symm
    | exclusive =>
        rw [hwriters v hv]
        simp

/-- Two writers wait and keep a reader out. When the wait of one of them is aborted, the other still does. -/
theorem aborted_writer_is_uncounted_second :
    ∃ s u, (start "db").run? [.acquire 0 .shared, .acquire 1 .exclusive, .acquire 2 .exclusive,
        .acquire 3 .shared] = some s ∧
      s.phase? 1 = some (.asleep .exclusive false) ∧ s.step? (.abort 1) = some u ∧
      s.lock = u.lock.arrive .exclusive ∧ (u.blocked .exclusive).encard = 1 ∧
      u.phase? 3 = some (.asleep .shared false) ∧ ¬u.lock.admits .shared = true := by
  have hrun : (start "db").run? [.acquire 0 .shared, .acquire 1 .exclusive, .acquire 2 .exclusive,
      .acquire 3 .shared] =
        some ⟨⟨"db", 1, false, 2⟩, [(0, .holding .shared), (1, .asleep .exclusive false),
          (2, .asleep .exclusive false), (3, .asleep .shared false)]⟩ := by
    decide
  obtain ⟨u, hu, hlock, -, -, hwaiting, -, hothers, hleft⟩ := aborted_writer_is_uncounted (t := 1) hrun rfl
  have hreader : u.phase? 3 = some (.asleep .shared false) := hothers 3 (by decide)
  have hone : u.lock.writersWaiting = 1 := by
    have hcounted := congrArg Lock.writersWaiting hlock
    exact (Nat.succ.inj hcounted).symm
  refine ⟨_, u, hrun, rfl, hu, hlock, by rw [hwaiting, hone]; rfl, hreader, ?_⟩
  rw [hleft 3 .shared hreader]
  rintro ⟨-, -, halone⟩
  have hsecond : 2 ∈ ({1} : Set Nat) := halone ▸ ⟨false, rfl⟩
  exact absurd hsecond (by decide)

/-- A reader has been kept out by a waiting writer alone. When the wait of that writer is aborted, the reader
would be admitted, but it has not been notified: it sleeps while another reader is inside, or even at a lock
that nobody holds or waits for any more. -/
theorem reader_sleeps_on_after_abort :
    (∃ s u, (start "db").run? [.acquire 0 .shared, .acquire 1 .exclusive, .acquire 2 .shared] = some s ∧
      s.step? (.abort 1) = some u ∧ u.phase? 2 = some (.asleep .shared false) ∧
        u.lock.admits .shared = true) ∧
    ∃ s u, (start "db").run? [.acquire 0 .exclusive, .acquire 1 .exclusive, .release 0,
        .acquire 2 .shared] = some s ∧
      s.step? (.abort 1) = some u ∧ u.phases = [(2, .asleep .shared false)] ∧ u.lock = .free "db" :=
  ⟨⟨⟨⟨"db", 1, false, 1⟩, [(0, .holding .shared), (1, .asleep .exclusive false), (2, .asleep .shared false)]⟩,
      ⟨⟨"db", 1, false, 0⟩, [(0, .holding .shared), (2, .asleep .shared false)]⟩, by decide⟩,
    ⟨⟨"db", 0, false, 1⟩, [(1, .asleep .exclusive true), (2, .asleep .shared false)]⟩,
      ⟨⟨"db", 0, false, 0⟩, [(2, .asleep .shared false)]⟩, by decide⟩

end Threads

end CatalogSteward
