import CatalogSteward.Proofs.Lock.Phases

/-!
# Runs of threads at a lock

Any number of threads come to one lock, in any order and as often as they like. A thread may wake without
having been notified, and may find the lock taken again by another thread; its wait may be aborted. A lock
cannot be taken twice by the same thread: only a thread that is not at the lock comes to it.

What a single event can do is said once, as a relation between the states before and after it. All that
is preserved along runs is proved by cases on that relation.
-/

namespace CatalogSteward.Threads

inductive Event where
  | acquire (thread : Nat) (mode : LockMode)
  | wake (thread : Nat)
  | release (thread : Nat)
  | abort (thread : Nat)
  deriving DecidableEq, Repr

def Event.thread : Event → Nat
  | .acquire t _ => t
  | .wake t => t
  | .release t => t
  | .abort t => t

/-- One event. Only a sleeper wakes or has its wait aborted, and only a holder releases. -/
def step? (s : Threads) : Event → Option Threads
  | .acquire t mode => if (s.phase? t).isNone then some (s.acquire t mode) else none
  | .wake t =>
    match s.phase? t with
    | some (.asleep _ _) => some (s.wake t)
    | _ => none
  | .release t =>
    match s.phase? t with
    | some (.holding _) => (s.release t).toOption
    | _ => none
  | .abort t =>
    match s.phase? t with
    | some (.asleep _ _) => some (s.abort t)
    | _ => none

def run? (s : Threads) : List Event → Option Threads
  | [] => some s
  | e :: es => (s.step? e).bind fun u => u.run? es

/-- The state once a thread has arrived and before it has looked at the lock. -/
def arrived (s : Threads) (t : Nat) (mode : LockMode) : Threads :=
  ⟨s.lock.arrive mode, s.phases ++ [(t, .asleep mode false)]⟩

/-- The state once a holder has left; `lock` is what the release makes of the lock. -/
def left (s : Threads) (t : Nat) (mode : LockMode) (lock : Lock) : Threads :=
  if lock.wakes mode then notifyAll ⟨lock, (s.remove t).phases⟩ else ⟨lock, (s.remove t).phases⟩

/-- What an event does. A thread that arrives or wakes makes an attempt. -/
inductive Step (s : Threads) : Event → Threads → Prop
  | acquire {t : Nat} {mode : LockMode} : s.phase? t = none →
      Step s (.acquire t mode) ((s.arrived t mode).attempt t mode)
  | wake {t : Nat} {mode : LockMode} {notified : Bool} : s.phase? t = some (.asleep mode notified) →
      Step s (.wake t) (s.attempt t mode)
  | release {t : Nat} {mode : LockMode} {lock : Lock} : s.phase? t = some (.holding mode) →
      s.lock.release mode = .ok lock → Step s (.release t) (s.left t mode lock)
  | abort {t : Nat} {mode : LockMode} {notified : Bool} : s.phase? t = some (.asleep mode notified) →
      Step s (.abort t) ({ s with lock := s.lock.leave mode }.remove t)

theorem giveBack_ok {s : Threads} {mode : LockMode} {lock : Lock} (h : s.lock.release mode = .ok lock) :
    s.giveBack mode = .ok (if lock.wakes mode then notifyAll { s with lock := lock }
      else { s with lock := lock }) := by
  rw [giveBack, h]
  rfl

theorem giveBack_error {s : Threads} {mode : LockMode} {e : NotHeld}
    (h : s.lock.release mode = .error e) : s.giveBack mode = .error e := by
  rw [giveBack, h]
  rfl

theorem release_ok {s : Threads} {t : Nat} {mode : LockMode} {lock : Lock}
    (ht : s.phase? t = some (.holding mode)) (h : s.lock.release mode = .ok lock) :
    s.release t = .ok (s.left t mode lock) := by
  rw [release, ht]
  exact giveBack_ok h

theorem step?_sound {s u : Threads} {e : Event} (h : s.step? e = some u) : Step s e u := by
  cases e with
  | acquire t mode =>
      simp only [step?] at h
      split_ifs at h with ht
      obtain rfl := Option.some.inj h
      exact .acquire (Option.isNone_iff_eq_none.mp ht)
  | wake t =>
      simp only [step?] at h
      split at h
      · next mode _ ht =>
          obtain rfl := Option.some.inj h
          rw [wake, ht]
          exact .wake ht
      · simp at h
  | release t =>
      simp only [step?] at h
      split at h
      · next mode ht =>
          cases hl : s.lock.release mode with
          | ok lock =>
              rw [release_ok ht hl] at h
              obtain rfl := Option.some.inj h
              exact .release ht hl
          | error e =>
              have hremove : (s.remove t).lock.release mode = .error e := hl
              rw [release, ht] at h
              simp only [giveBack_error hremove] at h
              simp [Except.toOption] at h
      · simp at h
  | abort t =>
      simp only [step?] at h
      split at h
      · next mode _ ht =>
          obtain rfl := Option.some.inj h
          rw [abort, ht]
          exact .abort ht
      · simp at h

theorem Step.step? {s u : Threads} {e : Event} (h : Step s e u) : s.step? e = some u := by
  cases h with
  | acquire ht => simp only [Threads.step?, ht]; rfl
  | wake ht => simp only [Threads.step?, Threads.wake, ht]
  | release ht hl => simp only [Threads.step?, ht, release_ok ht hl]; rfl
  | abort ht => simp only [Threads.step?, Threads.abort, ht]

theorem step?_eq_some_iff {s u : Threads} {e : Event} : s.step? e = some u ↔ Step s e u :=
  ⟨step?_sound, Step.step?⟩

/-- What every event preserves holds in every state that a run reaches. -/
theorem run?_induction {motive : Threads → Prop} {s u : Threads} {es : List Event}
    (hstep : ∀ {s e u}, Step s e u → motive s → motive u) (hs : motive s) (h : s.run? es = some u) :
    motive u := by
  induction es generalizing s with
  | nil =>
      obtain rfl := Option.some.inj h
      exact hs
  | cons e es ih =>
      obtain ⟨v, hv, h⟩ := Option.bind_eq_some_iff.mp h
      exact ih (hstep (step?_sound hv) hs) h

/-! ### The phases after an event -/

theorem phase?_arrived {s : Threads} {t : Nat} (ht : s.phase? t = none) (mode : LockMode) (u : Nat) :
    (s.arrived t mode).phase? u = if u = t then some (.asleep mode false) else s.phase? u := by
  rw [arrived, phase?_append]
  change ((s.phase? u).or _) = _
  split_ifs with hu
  · subst hu
    rw [ht, Option.none_or]
  · rw [Option.or_none]

/-- The thread that makes an attempt holds the lock if it was admitted; the others stay as they are. -/
theorem phase?_attempt {s : Threads} {t : Nat} {old : Phase} (ht : s.phase? t = some old)
    (mode : LockMode) (u : Nat) :
    (s.attempt t mode).phase? u =
      if u = t then some (if s.lock.admits mode then .holding mode else .asleep mode false)
      else s.phase? u := by
  have hput (lock : Lock) (phase : Phase) :
      ({ s with lock := lock }.put t phase).phase? u = if u = t then some phase else s.phase? u := by
    rw [phase?_put]
    change (if u = t then (s.phase? t).map _ else s.phase? u) = _
    rw [ht]
    rfl
  unfold attempt
  split_ifs with hadmit hu hu
  · rw [hput, if_pos hu]
  · rw [hput, if_neg hu]
  · rw [hput s.lock, if_pos hu]
  · rw [hput s.lock, if_neg hu]

theorem phase?_left (s : Threads) (t : Nat) (mode : LockMode) (lock : Lock) (u : Nat) :
    (s.left t mode lock).phase? u =
      if u = t then none
      else if lock.wakes mode then (s.phase? u).map Phase.notify else s.phase? u := by
  have hremove : phase? ⟨lock, (s.remove t).phases⟩ u = if u = t then none else s.phase? u :=
    phase?_remove s t u
  unfold left
  split_ifs with hwakes hu hu
  · rw [phase?_notifyAll, hremove, if_pos hu, Option.map_none]
  · rw [phase?_notifyAll, hremove, if_neg hu]
  · rw [hremove, if_pos hu]
  · rw [hremove, if_neg hu]

/-- What an event does to a thread that has no part in it: at most, it is notified. -/
theorem Step.phase?_others {s u : Threads} {e : Event} (h : Step s e u) {v : Nat} (hv : v ≠ e.thread) :
    u.phase? v = s.phase? v ∨ u.phase? v = (s.phase? v).map Phase.notify := by
  cases h with
  | @acquire t mode ht =>
      change v ≠ t at hv
      left
      have hasleep : (s.arrived t mode).phase? t = some (.asleep mode false) := by
        rw [phase?_arrived ht, if_pos rfl]
      rw [phase?_attempt hasleep, if_neg hv, phase?_arrived ht, if_neg hv]
  | @wake t mode notified ht =>
      change v ≠ t at hv
      left
      rw [phase?_attempt ht, if_neg hv]
  | @release t mode lock _ _ =>
      change v ≠ t at hv
      rw [phase?_left, if_neg hv]
      split_ifs
      · exact .inr rfl
      · exact .inl rfl
  | @abort t mode notified _ =>
      change v ≠ t at hv
      left
      have hremove := phase?_remove { s with lock := s.lock.leave mode } t v
      rw [if_neg hv] at hremove
      exact hremove

theorem map_notify_eq_holding {phase : Option Phase} {mode : LockMode} :
    phase.map Phase.notify = some (.holding mode) ↔ phase = some (.holding mode) := by
  rcases phase with _ | (_ | _) <;> simp [Phase.notify]

/-- An event takes the lock from no thread that has no part in it, and gives it to none. -/
theorem Step.holding_others {s u : Threads} {e : Event} (h : Step s e u) {v : Nat} (hv : v ≠ e.thread)
    (mode : LockMode) : u.phase? v = some (.holding mode) ↔ s.phase? v = some (.holding mode) := by
  rcases h.phase?_others hv with hsame | hnotified
  · rw [hsame]
  · rw [hnotified, map_notify_eq_holding]

/-- A thread that comes to the lock holds it then or sleeps. -/
theorem Step.phase?_acquire {s u : Threads} {t : Nat} {mode : LockMode} (h : Step s (.acquire t mode) u) :
    u.phase? t = some (.holding mode) ∨ u.phase? t = some (.asleep mode false) := by
  cases h with
  | acquire ht =>
      have hasleep : (s.arrived t mode).phase? t = some (.asleep mode false) := by
        rw [phase?_arrived ht, if_pos rfl]
      rw [phase?_attempt hasleep, if_pos rfl]
      split_ifs
      · exact .inl rfl
      · exact .inr rfl

theorem Step.phase?_wake {s u : Threads} {t : Nat} (h : Step s (.wake t) u) :
    ∃ mode notified, s.phase? t = some (.asleep mode notified) ∧
      (u.phase? t = some (.holding mode) ∨ u.phase? t = some (.asleep mode false)) := by
  cases h with
  | @wake t mode notified ht =>
      refine ⟨mode, notified, ht, ?_⟩
      rw [phase?_attempt ht, if_pos rfl]
      split_ifs
      · exact .inl rfl
      · exact .inr rfl

/-- A thread that releases the lock has held it, and is gone. -/
theorem Step.phase?_release {s u : Threads} {t : Nat} (h : Step s (.release t) u) :
    (∃ mode, s.phase? t = some (.holding mode)) ∧ u.phase? t = none := by
  cases h with
  | release ht _ => exact ⟨⟨_, ht⟩, by rw [phase?_left, if_pos rfl]⟩

/-! ### The name of the lock -/

theorem lock_attempt (s : Threads) (t : Nat) (mode : LockMode) :
    (s.attempt t mode).lock = if s.lock.admits mode then s.lock.take mode else s.lock := by
  unfold attempt
  split_ifs <;> rfl

theorem lock_left (s : Threads) (t : Nat) (mode : LockMode) (lock : Lock) :
    (s.left t mode lock).lock = lock := by
  unfold left
  split_ifs <;> rfl

theorem name_attempt (s : Threads) (t : Nat) (mode : LockMode) :
    (s.attempt t mode).lock.name = s.lock.name := by
  rw [lock_attempt]
  split_ifs
  · cases mode <;> rfl
  · rfl

theorem name_release {l lock : Lock} {mode : LockMode} (h : l.release mode = .ok lock) :
    lock.name = l.name := by
  cases mode with
  | shared =>
      simp only [Lock.release] at h
      split_ifs at h
      obtain rfl := Except.ok.inj h
      rfl
  | exclusive =>
      simp only [Lock.release] at h
      split_ifs at h
      obtain rfl := Except.ok.inj h
      rfl

/-- No event renames the lock. -/
theorem Step.name {s u : Threads} {e : Event} (h : Step s e u) : u.lock.name = s.lock.name := by
  cases h with
  | @acquire t mode _ =>
      rw [name_attempt]
      cases mode <;> rfl
  | wake _ => exact name_attempt ..
  | release _ hl =>
      rw [lock_left]
      exact name_release hl
  | @abort t mode notified _ => cases mode <;> rfl

end CatalogSteward.Threads
