import CatalogSteward.Proofs.Act
import CatalogSteward.Proofs.Lock.Runs

/-!
# What the counters of a lock count

In every state that a run reaches, the counters of the lock tell how many threads hold it or wait for it,
and no writer is inside together with another thread. The invariant compares the counters with the table
of threads; every event keeps it, and counting in the table is then counting threads.
-/

namespace CatalogSteward.Threads

/-- The counters agree with the table of threads, and a writer is alone. -/
structure Balanced (s : Threads) : Prop where
  distinct : s.Distinct
  readers : s.lock.readers = s.count (Phase.isHolding .shared)
  writer : s.lock.writer.toNat = s.count (Phase.isHolding .exclusive)
  waiting : s.lock.writersWaiting = s.count (Phase.isAsleep .exclusive)
  alone : s.lock.writer = true → s.lock.readers = 0

theorem balanced_start (name : String) : (start name).Balanced :=
  ⟨List.nodup_nil, rfl, rfl, rfl, fun _ => rfl⟩

/-- A thread that arrives counts as waiting before it looks at the lock. -/
theorem Balanced.arrived {s : Threads} (hs : s.Balanced) {t : Nat} (ht : s.phase? t = none)
    (mode : LockMode) : (s.arrived t mode).Balanced := by
  have hcount (p : Phase → Bool) :
      (s.arrived t mode).count p = s.count p + (p (.asleep mode false)).toNat :=
    count_append (s.lock.arrive mode) s.phases t _ p
  have hdistinct : (s.arrived t mode).Distinct := hs.distinct.append ht _ _
  cases mode with
  | shared =>
      refine ⟨hdistinct, ?_, ?_, ?_, hs.alone⟩
      · rw [hcount, ← hs.readers]; rfl
      · rw [hcount, ← hs.writer]; rfl
      · rw [hcount, ← hs.waiting]; rfl
  | exclusive =>
      refine ⟨hdistinct, ?_, ?_, ?_, hs.alone⟩
      · rw [hcount, ← hs.readers]; rfl
      · rw [hcount, ← hs.writer]; rfl
      · rw [hcount, ← hs.waiting]; rfl

/-- A waiting thread that looks at the lock either takes it or goes on waiting. -/
theorem Balanced.attempt {s : Threads} (hs : s.Balanced) {t : Nat} {mode : LockMode} {notified : Bool}
    (ht : s.phase? t = some (.asleep mode notified)) : (s.attempt t mode).Balanced := by
  have hold (p) := count_remove hs.distinct ht p
  have hnew (lock : Lock) (phase) (p) :
      count ({ s with lock := lock }.put t phase) p = (s.remove t).count p + (p phase).toNat :=
    count_put hs.distinct ht phase p
  unfold Threads.attempt
  split_ifs with hadmit
  · cases mode with
    | shared =>
        have hfree : s.lock.writer = false := by simp_all [Lock.admits]
        refine ⟨hs.distinct.put t _, ?_, ?_, ?_, ?_⟩
        · rw [hnew]
          exact congrArg (· + 1) (hs.readers.trans (hold _))
        · rw [hnew]
          exact hs.writer.trans (hold _)
        · rw [hnew]
          exact hs.waiting.trans (hold _)
        · intro h
          exact absurd (hfree.symm.trans h) (by decide)
    | exclusive =>
        have hfree : s.lock.writer = false ∧ s.lock.readers = 0 := by simp_all [Lock.admits]
        refine ⟨hs.distinct.put t _, ?_, ?_, ?_, fun _ => hfree.2⟩
        · rw [hnew]
          exact hs.readers.trans (hold _)
        · rw [hnew]
          have hnone := hs.writer.trans (hold _)
          rw [hfree.1] at hnone
          exact congrArg (· + 1) hnone
        · rw [hnew]
          exact congrArg (· - 1) (hs.waiting.trans (hold _))
  · refine ⟨hs.distinct.put t _, ?_, ?_, ?_, hs.alone⟩
    · rw [hnew s.lock]
      exact hs.readers.trans (hold _)
    · rw [hnew s.lock]
      exact hs.writer.trans (hold _)
    · rw [hnew s.lock]
      exact hs.waiting.trans (hold _)

theorem Balanced.notifyAll {s : Threads} (hs : s.Balanced) : s.notifyAll.Balanced := by
  refine ⟨hs.distinct.notifyAll, ?_, ?_, ?_, hs.alone⟩
  · rw [count_notifyAll _ (Phase.isHolding_notify .shared)]
    exact hs.readers
  · rw [count_notifyAll _ (Phase.isHolding_notify .exclusive)]
    exact hs.writer
  · rw [count_notifyAll _ (Phase.isAsleep_notify .exclusive)]
    exact hs.waiting

theorem Balanced.release_ok {s : Threads} (hs : s.Balanced) {t : Nat} {mode : LockMode}
    (ht : s.phase? t = some (.holding mode)) : ∃ lock, s.lock.release mode = .ok lock := by
  have hold (p) := count_remove hs.distinct ht p
  cases mode with
  | shared =>
      have hr : s.lock.readers = (s.remove t).count (Phase.isHolding .shared) + 1 :=
        hs.readers.trans (hold _)
      exact ⟨_, if_neg (by omega)⟩
  | exclusive =>
      have hw : s.lock.writer.toNat = (s.remove t).count (Phase.isHolding .exclusive) + 1 :=
        hs.writer.trans (hold _)
      have hheld : s.lock.writer = true := by
        cases h : s.lock.writer with
        | true => rfl
        | false => rw [h] at hw; simp at hw
      exact ⟨_, if_pos hheld⟩

theorem Balanced.left {s : Threads} (hs : s.Balanced) {t : Nat} {mode : LockMode} {lock : Lock}
    (ht : s.phase? t = some (.holding mode)) (hl : s.lock.release mode = .ok lock) :
    (s.left t mode lock).Balanced := by
  have hold (p) := count_remove hs.distinct ht p
  have hgone : Balanced ⟨lock, (s.remove t).phases⟩ := by
    cases mode with
    | shared =>
        simp only [Lock.release] at hl
        split_ifs at hl
        obtain rfl := Except.ok.inj hl
        have hr : s.lock.readers = (s.remove t).count (Phase.isHolding .shared) + 1 :=
          hs.readers.trans (hold _)
        refine ⟨hs.distinct.remove t, ?_, ?_, ?_, ?_⟩
        · exact congrArg (· - 1) hr
        · exact hs.writer.trans (hold _)
        · exact hs.waiting.trans (hold _)
        · exact fun h => congrArg (· - 1) (hs.alone h)
    | exclusive =>
        simp only [Lock.release] at hl
        split_ifs at hl with hheld
        obtain rfl := Except.ok.inj hl
        have hw : s.lock.writer.toNat = (s.remove t).count (Phase.isHolding .exclusive) + 1 :=
          hs.writer.trans (hold _)
        rw [hheld] at hw
        refine ⟨hs.distinct.remove t, ?_, Nat.succ.inj hw, ?_, fun h => absurd h Bool.false_ne_true⟩
        · exact hs.readers.trans (hold _)
        · exact hs.waiting.trans (hold _)
  unfold Threads.left
  split_ifs
  · exact hgone.notifyAll
  · exact hgone

theorem Balanced.aborted {s : Threads} (hs : s.Balanced) {t : Nat} {mode : LockMode} {notified : Bool}
    (ht : s.phase? t = some (.asleep mode notified)) :
    ({ s with lock := s.lock.leave mode }.remove t).Balanced := by
  have hold (p) := count_remove hs.distinct ht p
  cases mode with
  | shared =>
      exact ⟨hs.distinct.remove t, hs.readers.trans (hold _), hs.writer.trans (hold _),
        hs.waiting.trans (hold _), hs.alone⟩
  | exclusive =>
      exact ⟨hs.distinct.remove t, hs.readers.trans (hold _), hs.writer.trans (hold _),
        congrArg (· - 1) (hs.waiting.trans (hold _)), hs.alone⟩

theorem Balanced.step {s u : Threads} {e : Event} (hs : s.Balanced) (h : Step s e u) : u.Balanced := by
  cases h with
  | @acquire t mode ht =>
      have hasleep : (s.arrived t mode).phase? t = some (.asleep mode false) := by
        rw [phase?_arrived ht, if_pos rfl]
      exact (hs.arrived ht mode).attempt hasleep
  | wake ht => exact hs.attempt ht
  | release ht hl => exact hs.left ht hl
  | abort ht => exact hs.aborted ht

theorem Balanced.run {s u : Threads} {es : List Event} (hs : s.Balanced) (h : s.run? es = some u) :
    u.Balanced := run?_induction (fun hstep hs => hs.step hstep) hs h

/-- A writer that is inside is alone there. -/
theorem Balanced.only_writer {s : Threads} (hs : s.Balanced) {t u : Nat} {mode : LockMode}
    (ht : s.phase? t = some (.holding .exclusive)) (hu : s.phase? u = some (.holding mode)) : u = t := by
  by_contra hne
  have hremoved : (s.remove t).phase? u = some (.holding mode) := by rw [phase?_remove, if_neg hne, hu]
  -- take both threads out of the table: one flag cannot stand for two writers
  have hw := hs.writer.trans (count_remove hs.distinct ht _)
  have hr := hs.readers.trans (count_remove hs.distinct ht _)
  rw [count_remove (hs.distinct.remove t) hremoved] at hw hr
  cases mode with
  | shared =>
      have hinside : s.lock.readers = ((s.remove t).remove u).count (Phase.isHolding .shared) + 1 := hr
      have hheld : s.lock.writer = true := by
        cases h : s.lock.writer with
        | true => rfl
        | false => rw [h] at hw; exact absurd hw (Nat.succ_ne_zero _).symm
      have hnone := hs.alone hheld
      omega
  | exclusive =>
      have hinside : s.lock.writer.toNat =
        ((s.remove t).remove u).count (Phase.isHolding .exclusive) + 1 + 1 := hw
      have hflag := Bool.toNat_le s.lock.writer
      omega

/-! ### Counting threads -/

theorem encard_holding {s : Threads} (hs : s.Distinct) (mode : LockMode) :
    (s.holding mode).encard = s.count (Phase.isHolding mode) := by
  rw [← encard_eq_count hs]
  congr 1
  ext t
  simp [holding, Phase.isHolding_iff]

theorem encard_blocked {s : Threads} (hs : s.Distinct) (mode : LockMode) :
    (s.blocked mode).encard = s.count (Phase.isAsleep mode) := by
  rw [← encard_eq_count hs]
  congr 1
  ext t
  simp only [blocked, Set.mem_ofPred_eq, Phase.isAsleep_iff]
  grind

theorem Balanced.readers_eq {s : Threads} (hs : s.Balanced) :
    (s.holding .shared).encard = s.lock.readers := by
  rw [encard_holding hs.distinct, hs.readers]

theorem Balanced.writer_eq {s : Threads} (hs : s.Balanced) :
    (s.holding .exclusive).encard = s.lock.writer.toNat := by
  rw [encard_holding hs.distinct, hs.writer]

theorem Balanced.waiting_eq {s : Threads} (hs : s.Balanced) :
    (s.blocked .exclusive).encard = s.lock.writersWaiting := by
  rw [encard_blocked hs.distinct, hs.waiting]

theorem Balanced.writer_iff {s : Threads} (hs : s.Balanced) :
    s.lock.writer = true ↔ (s.holding .exclusive).Nonempty := by
  rw [← Set.encard_pos, hs.writer_eq]
  cases s.lock.writer <;> simp

theorem Balanced.release_error {s : Threads} (hs : s.Balanced) {mode : LockMode}
    (h : s.holding mode = ∅) : s.lock.release mode = .error ⟨s.lock.name, mode⟩ := by
  cases mode with
  | shared =>
      have hr : s.lock.readers = 0 := by
        have hcard := hs.readers_eq
        rw [h, Set.encard_empty] at hcard
        exact_mod_cast hcard.symm
      exact if_pos hr
  | exclusive =>
      have hw : ¬s.lock.writer = true := by
        rw [hs.writer_iff, h]
        exact Set.not_nonempty_empty
      exact if_neg hw

theorem releaseAny_of_not_held {s : Threads} (hs : s.Distinct) {mode : LockMode}
    (h : s.holding mode = ∅) : s.releaseAny mode = s.giveBack mode := by
  have hfind : s.phases.find? (fun p => p.2 == .holding mode) = none := by
    refine List.find?_eq_none.mpr ?_
    rintro ⟨t, phase⟩ hm hp
    obtain rfl : phase = .holding mode := by simpa using hp
    have ht : t ∈ s.holding mode := (phase?_eq_some_iff hs).mpr hm
    rw [h] at ht
    exact ht
  rw [releaseAny, hfind]

/-- In every state that a run reaches: a writer is inside alone; the readers, the writer flag and the
waiting writers are the numbers of threads that they stand for; and a release in a mode in which nobody
holds the lock is refused, with the counters and all else left as they were. -/
theorem counters_count_threads {name : String} {es : List Event} {s : Threads}
    (h : (start name).run? es = some s) :
    ((s.holding .exclusive).Nonempty → s.holding .shared = ∅) ∧
    (s.holding .exclusive).Subsingleton ∧
    (s.holding .shared).encard = s.lock.readers ∧
    (s.lock.writer = true ↔ (s.holding .exclusive).Nonempty) ∧
    (s.blocked .exclusive).encard = s.lock.writersWaiting ∧
    ∀ mode, s.holding mode = ∅ →
      s.releaseAny mode = .error ⟨name, mode⟩ ∧
      ∀ (key : String) (w : World), w.locks.lock key = s.lock →
        Act.release mode key w = (.error (.fault (.notHeld ⟨name, mode⟩)), w) := by
  have hs := (balanced_start name).run h
  have hname : s.lock.name = name := run?_induction (fun hstep hn => hstep.name.trans hn) rfl h
  refine ⟨?_, ?_, hs.readers_eq, hs.writer_iff, hs.waiting_eq, ?_⟩
  · intro hw
    have hr := hs.readers_eq
    rw [hs.alone (hs.writer_iff.mpr hw)] at hr
    exact Set.encard_eq_zero.mp (by exact_mod_cast hr)
  · refine Set.encard_le_one_iff_subsingleton.mp ?_
    rw [hs.writer_eq]
    cases s.lock.writer <;> simp
  · intro mode hmode
    have hrelease := hs.release_error hmode
    rw [hname] at hrelease
    refine ⟨?_, ?_⟩
    · rw [releaseAny_of_not_held hs.distinct hmode]
      exact giveBack_error hrelease
    · intro key w hw
      exact Act.release_error (hw ▸ hrelease)

/-- A reader is inside, a writer waits and keeps a second reader out, which wakes for no reason and goes
on waiting; the writer enters when the first reader has left. Then nobody reads. -/
theorem counters_after_handover :
    ∃ s, (start "db").run? [.acquire 0 .shared, .acquire 1 .exclusive, .acquire 2 .shared, .wake 2,
        .release 0, .wake 1] = some s ∧
      s.lock = ⟨"db", 0, true, 0⟩ ∧ (s.holding .exclusive).Subsingleton ∧
      (s.holding .exclusive).Nonempty ∧ s.releaseAny .shared = .error ⟨"db", .shared⟩ := by
  have hrun : (start "db").run? [.acquire 0 .shared, .acquire 1 .exclusive, .acquire 2 .shared, .wake 2,
      .release 0, .wake 1] =
        some ⟨⟨"db", 0, true, 0⟩, [(1, .holding .exclusive), (2, .asleep .shared true)]⟩ := by
    decide
  obtain ⟨hreaders, hone, -, hwriter, -, hrelease⟩ := counters_count_threads hrun
  have hinside := hwriter.mp rfl
  exact ⟨_, hrun, rfl, hone, hinside, (hrelease .shared (hreaders hinside)).1⟩

end CatalogSteward.Threads
