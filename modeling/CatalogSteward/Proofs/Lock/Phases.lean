import CatalogSteward.Lock.Threads
import Mathlib.Data.Set.Card

/-!
# The threads at a lock

The table of threads is read in two ways: by asking for the phase of one thread, and by counting the
threads in some kind of phase. This module says what every operation on the table does to both. No thread
stands in the table twice; that is what makes the two readings agree.
-/

namespace CatalogSteward

namespace Phase

def isHolding (mode : LockMode) : Phase → Bool
  | .asleep _ _ => false
  | .holding m => m == mode

def isAsleep (mode : LockMode) : Phase → Bool
  | .asleep m _ => m == mode
  | .holding _ => false

def notify : Phase → Phase
  | .asleep mode _ => .asleep mode true
  | .holding mode => .holding mode

@[simp] theorem isHolding_notify (mode : LockMode) (phase : Phase) :
    phase.notify.isHolding mode = phase.isHolding mode := by
  cases phase <;> rfl

@[simp] theorem isAsleep_notify (mode : LockMode) (phase : Phase) :
    phase.notify.isAsleep mode = phase.isAsleep mode := by
  cases phase <;> rfl

theorem isHolding_iff {mode : LockMode} {phase : Phase} :
    phase.isHolding mode = true ↔ phase = .holding mode := by
  cases phase <;> simp [isHolding]

theorem isAsleep_iff {mode : LockMode} {phase : Phase} :
    phase.isAsleep mode = true ↔ ∃ notified, phase = .asleep mode notified := by
  cases phase <;> simp [isAsleep]

end Phase

namespace Threads

/-- No thread stands in the table twice. -/
def Distinct (s : Threads) : Prop := (s.phases.map Prod.fst).Nodup

def count (s : Threads) (p : Phase → Bool) : Nat := s.phases.countP fun e => p e.2

/-- The threads that hold the lock in a mode. -/
def holding (s : Threads) (mode : LockMode) : Set Nat := {t | s.phase? t = some (.holding mode)}

/-- The threads that wait for the lock in a mode, notified or not. -/
def blocked (s : Threads) (mode : LockMode) : Set Nat :=
  {t | ∃ notified, s.phase? t = some (.asleep mode notified)}

/-! ### The phase of a thread -/

theorem phase?_eq_some_iff {s : Threads} (hs : s.Distinct) {t : Nat} {phase : Phase} :
    s.phase? t = some phase ↔ (t, phase) ∈ s.phases := by
  obtain ⟨lock, l⟩ := s
  change (l.map Prod.fst).Nodup at hs
  simp only [phase?]
  induction l with
  | nil => simp
  | cons e l ih =>
      obtain ⟨hnot, hl⟩ := List.nodup_cons.mp hs
      obtain ⟨u, other⟩ := e
      by_cases hu : u = t
      · subst hu
        have hrest : (u, phase) ∉ l := fun hm => hnot (List.mem_map.mpr ⟨_, hm, rfl⟩)
        simp [hrest, eq_comm]
      · rw [List.find?_cons_of_neg (by simpa using hu), ih hl, List.mem_cons]
        simp [Ne.symm hu]

theorem phase?_eq_none_iff {s : Threads} {t : Nat} :
    s.phase? t = none ↔ t ∉ s.phases.map Prod.fst := by
  simp only [phase?, Option.map_eq_none_iff, List.find?_eq_none, List.mem_map, not_exists, not_and]
  simp

@[simp] theorem phase?_start (name : String) (t : Nat) : (start name).phase? t = none := rfl

theorem phase?_put (s : Threads) (t u : Nat) (phase : Phase) :
    (s.put t phase).phase? u = if u = t then (s.phase? t).map fun _ => phase else s.phase? u := by
  obtain ⟨lock, l⟩ := s
  simp only [phase?, put]
  induction l with
  | nil => simp
  | cons e l ih => grind

theorem phase?_remove (s : Threads) (t u : Nat) :
    (s.remove t).phase? u = if u = t then none else s.phase? u := by
  obtain ⟨lock, l⟩ := s
  simp only [phase?, remove]
  induction l with
  | nil => simp
  | cons e l ih => grind

theorem phases_notifyAll (s : Threads) :
    s.notifyAll.phases = s.phases.map fun e => (e.1, e.2.notify) := by
  refine List.map_congr_left ?_
  rintro ⟨t, _ | _⟩ - <;> rfl

theorem phase?_notifyAll (s : Threads) (u : Nat) :
    s.notifyAll.phase? u = (s.phase? u).map Phase.notify := by
  rw [phase?, phases_notifyAll, List.find?_map, Option.map_map, phase?, Option.map_map]
  rfl

theorem phase?_append (lock : Lock) (l : List (Nat × Phase)) (t u : Nat) (phase : Phase) :
    phase? ⟨lock, l ++ [(t, phase)]⟩ u = (phase? ⟨lock, l⟩ u).or (if u = t then some phase else none) := by
  simp only [phase?, List.find?_append]
  grind

/-! ### The number of threads in a phase -/

theorem perm_remove {s : Threads} (hs : s.Distinct) {t : Nat} {phase : Phase}
    (h : s.phase? t = some phase) : s.phases.Perm ((t, phase) :: (s.remove t).phases) := by
  have hm := (phase?_eq_some_iff hs).mp h
  obtain ⟨lock, l⟩ := s
  change (l.map Prod.fst).Nodup at hs
  change (t, phase) ∈ l at hm
  change l.Perm ((t, phase) :: l.filter fun e => e.1 ≠ t)
  clear h
  induction l with
  | nil => simp at hm
  | cons e l ih =>
      obtain ⟨hnot, hl⟩ := List.nodup_cons.mp hs
      rcases List.mem_cons.mp hm with rfl | hm
      · have hrest : l.filter (fun e => e.1 ≠ t) = l := by
          refine List.filter_eq_self.mpr fun e he => ?_
          simpa using fun h : e.1 = t => hnot (List.mem_map.mpr ⟨e, he, h⟩)
        rw [List.filter_cons_of_neg (by simp), hrest]
      · have he : e.1 ≠ t := fun h => hnot (List.mem_map.mpr ⟨_, hm, h.symm⟩)
        rw [List.filter_cons_of_pos (by simpa using he)]
        exact ((ih hl hm).cons e).trans (.swap _ _ _)

theorem count_remove {s : Threads} (hs : s.Distinct) {t : Nat} {phase : Phase}
    (h : s.phase? t = some phase) (p : Phase → Bool) :
    s.count p = (s.remove t).count p + (p phase).toNat := by
  rw [count, (perm_remove hs h).countP_eq, List.countP_cons, count]
  cases p phase <;> rfl

theorem remove_put (s : Threads) (t : Nat) (phase : Phase) : (s.put t phase).remove t = s.remove t := by
  obtain ⟨lock, l⟩ := s
  simp only [put, remove, mk.injEq, true_and]
  induction l with
  | nil => rfl
  | cons e l ih => grind

theorem Distinct.put {s : Threads} (hs : s.Distinct) (t : Nat) (phase : Phase) :
    (s.put t phase).Distinct := by
  have hkeys : (s.put t phase).phases.map Prod.fst = s.phases.map Prod.fst := by
    simp only [Threads.put, List.map_map]
    refine List.map_congr_left fun e _ => ?_
    simp only [Function.comp_apply]
    split_ifs with h
    · exact h.symm
    · rfl
  rwa [Distinct, hkeys]

theorem Distinct.remove {s : Threads} (hs : s.Distinct) (t : Nat) : (s.remove t).Distinct :=
  List.Nodup.sublist (List.Sublist.map Prod.fst List.filter_sublist) hs

theorem Distinct.notifyAll {s : Threads} (hs : s.Distinct) : s.notifyAll.Distinct := by
  rwa [Distinct, phases_notifyAll, List.map_map]

theorem Distinct.append {s : Threads} (hs : s.Distinct) {t : Nat} (ht : s.phase? t = none)
    (lock : Lock) (phase : Phase) : Distinct ⟨lock, s.phases ++ [(t, phase)]⟩ := by
  have hnot := phase?_eq_none_iff.mp ht
  simp only [Distinct, List.map_append, List.map_cons, List.map_nil]
  exact List.nodup_append.mpr ⟨hs, by simp, by grind⟩

theorem count_put {s : Threads} (hs : s.Distinct) {t : Nat} {old : Phase} (h : s.phase? t = some old)
    (phase : Phase) (p : Phase → Bool) :
    (s.put t phase).count p = (s.remove t).count p + (p phase).toNat := by
  have hput : (s.put t phase).phase? t = some phase := by simp [phase?_put, h]
  rw [count_remove (hs.put t phase) hput, remove_put]

theorem count_notifyAll (s : Threads) {p : Phase → Bool} (hp : ∀ phase, p phase.notify = p phase) :
    s.notifyAll.count p = s.count p := by
  rw [count, phases_notifyAll, List.countP_map, count]
  congr 1
  funext e
  exact hp e.2

theorem count_append (lock : Lock) (l : List (Nat × Phase)) (t : Nat) (phase : Phase) (p : Phase → Bool) :
    count ⟨lock, l ++ [(t, phase)]⟩ p = count ⟨lock, l⟩ p + (p phase).toNat := by
  simp only [count, List.countP_append, List.countP_cons, List.countP_nil]
  cases p phase <;> rfl

/-- Counting in the table counts threads. -/
theorem encard_eq_count {s : Threads} (hs : s.Distinct) (p : Phase → Bool) :
    {t | ∃ phase, s.phase? t = some phase ∧ p phase = true}.encard = s.count p := by
  have hset : {t | ∃ phase, s.phase? t = some phase ∧ p phase = true} =
      ((s.phases.filter fun e => p e.2).map Prod.fst).toFinset := by
    ext t
    simp [phase?_eq_some_iff hs]
  have hnodup : ((s.phases.filter fun e => p e.2).map Prod.fst).Nodup :=
    List.Nodup.sublist (List.Sublist.map Prod.fst List.filter_sublist) hs
  rw [hset, Set.encard_coe_eq_coe_finsetCard, List.toFinset_card_of_nodup hnodup, List.length_map,
    count, List.countP_eq_length_filter]

end Threads

end CatalogSteward
