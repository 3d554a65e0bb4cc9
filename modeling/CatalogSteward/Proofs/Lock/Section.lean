import CatalogSteward.Proofs.Act
import Mathlib.Data.Bool.Basic

/-!
# Sections under a lock

Carrying out an operation under a lock that nobody holds takes the lock, runs the operation, and leaves
the lock as it was, whether the operation fails or not.
-/

namespace CatalogSteward

namespace Lock

/-- A lock that nobody holds or waits for. -/
def IsFree (l : Lock) : Prop := l.readers = 0 ∧ l.writer = false ∧ l.writersWaiting = 0

theorem IsFree.admits {l : Lock} (h : l.IsFree) (mode : LockMode) : l.admits mode = true := by
  obtain ⟨hreaders, hwriter, hwaiting⟩ := h
  cases mode with
  | shared => rw [Lock.admits, hwriter, hwaiting]; rfl
  | exclusive => rw [Lock.admits, hwriter, hreaders]; rfl

/-- Giving a hold back undoes taking it. -/
theorem release_take {l : Lock} {mode : LockMode} (h : l.admits mode = true) :
    ((l.arrive mode).take mode).release mode = .ok l := by
  obtain ⟨name, readers, writer, waiting⟩ := l
  cases mode with
  | shared => rfl
  | exclusive =>
      cases writer with
      | true => exact absurd h (by simp [admits])
      | false => rfl

end Lock

namespace LockRegistry

def Has (r : LockRegistry) (key : String) : Prop := ∃ l, (key, l) ∈ r

theorem find?_eq_none_iff {r : LockRegistry} {key : String} :
    r.find? (fun e => e.1 == key) = none ↔ ¬r.Has key := by
  simp only [List.find?_eq_none, Has, not_exists, beq_iff_eq]
  constructor
  · exact fun h l hl => h _ hl rfl
  · rintro h ⟨k, l⟩ hm rfl
    exact h l hm

theorem any_iff_has {r : LockRegistry} {key : String} :
    (r.any fun e => e.1 == key) = true ↔ r.Has key := by
  simp [Has]

theorem has_ensure (r : LockRegistry) (key : String) : (r.ensure key).Has key := by
  unfold ensure
  split
  · next h => exact any_iff_has.mp h
  · exact ⟨.free key, by simp⟩

/-- A key that has no lock stands for a free one already. -/
theorem lock_ensure (r : LockRegistry) (key : String) : (r.ensure key).lock key = r.lock key := by
  unfold ensure
  split
  · rfl
  · next h =>
      have hnone := find?_eq_none_iff.mpr (mt any_iff_has.mpr h)
      simp only [lock]
      rw [List.find?_append, hnone]
      simp

theorem lock_put {r : LockRegistry} {key : String} (h : r.Has key) (l : Lock) :
    (r.put key l).lock key = l := by
  obtain ⟨old, hm⟩ := h
  simp only [lock, put]
  induction r with
  | nil => simp at hm
  | cons e r ih => grind

theorem lock_ensure_of_ne (r : LockRegistry) {key other : String} (h : other ≠ key) :
    (r.ensure key).lock other = r.lock other := by
  unfold ensure
  split
  · rfl
  · simp [lock, List.find?_append, Ne.symm h]

theorem lock_put_of_ne (r : LockRegistry) {key other : String} (h : other ≠ key) (l : Lock) :
    (r.put key l).lock other = r.lock other := by
  simp only [lock, put]
  induction r with
  | nil => rfl
  | cons e r ih => grind

theorem Has.put {r : LockRegistry} {key : String} (h : r.Has key) (l : Lock) : (r.put key l).Has key := by
  obtain ⟨old, hm⟩ := h
  exact ⟨l, List.mem_map.mpr ⟨_, hm, if_pos rfl⟩⟩

end LockRegistry

def World.entered (w : World) (mode : LockMode) (key : String) : World :=
  { w with
    locks := (w.locks.ensure key).put key (((w.locks.lock key).arrive mode).take mode)
    trace := w.trace ++ [.lock mode key] }

namespace Act

/-- The only thread that finds the lock taken never enters. -/
theorem locked_error {α : Type} {mode : LockMode} {key : String} {w : World}
    (h : (w.locks.lock key).admits mode = false) (a : Act α) :
    locked mode key a w = (.error (.fault (.deadlock key)), { w with locks := w.locks.ensure key }) :=
  bind_error (acquire_error (by rwa [LockRegistry.lock_ensure])) _

/-- A section that is entered is left again, with the result of the operation and with all locks as they
were before. -/
theorem locked_restores {α : Type} {mode : LockMode} {key : String} {w u : World} {a : Act α}
    {result : Except Failure α} (h : (w.locks.lock key).admits mode = true)
    (ha : a (w.entered mode key) = (result, u)) (hu : u.locks = (w.entered mode key).locks) :
    ∃ locks, locked mode key a w =
        (result, { u with locks := locks, trace := u.trace ++ [.unlock mode key] }) ∧
      ∀ other, locks.lock other = w.locks.lock other := by
  have hensure := LockRegistry.lock_ensure w.locks key
  have hhas := LockRegistry.has_ensure w.locks key
  have hacquire : acquire mode key w = (.ok (), w.entered mode key) := by
    rw [acquire_ok (by rwa [hensure]), hensure]
    rfl
  have hrelease : (u.locks.lock key).release mode = .ok (w.locks.lock key) := by
    rw [hu, World.entered, LockRegistry.lock_put hhas]
    exact Lock.release_take h
  refine ⟨(w.entered mode key).locks.put key (w.locks.lock key), ?_, fun other => ?_⟩
  · rw [locked, bind_ok hacquire, always_apply, ha, release_ok hrelease, hu]
  · by_cases hother : other = key
    · rw [hother, World.entered, LockRegistry.lock_put (hhas.put _)]
    · rw [LockRegistry.lock_put_of_ne _ hother, World.entered, LockRegistry.lock_put_of_ne _ hother,
        LockRegistry.lock_ensure_of_ne _ hother]

theorem locked_apply {α : Type} {mode : LockMode} {key : String} {w u : World} {a : Act α}
    {result : Except Failure α} (h : (w.locks.lock key).admits mode = true)
    (ha : a (w.entered mode key) = (result, u)) (hu : u.locks = (w.entered mode key).locks) :
    ∃ locks, locked mode key a w =
        (result, { u with locks := locks, trace := u.trace ++ [.unlock mode key] }) ∧
      locks.lock key = w.locks.lock key := by
  obtain ⟨locks, hlocked, hlocks⟩ := locked_restores h ha hu
  exact ⟨locks, hlocked, hlocks key⟩

end Act

end CatalogSteward
