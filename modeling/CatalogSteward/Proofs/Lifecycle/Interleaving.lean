import CatalogSteward.Proofs.Lifecycle.Calls
import CatalogSteward.Proofs.Lock.Runs
import Mathlib.Logic.Function.Basic

/-!
# Threads that carry out operations

Any number of threads carry out their lists of calls on one catalog, under one lock. They may use one
client or several, and a client may be used by several threads. What a thread does without a break is
short: it prepares a call up to the point where it asks for the lock; it asks for the lock, or wakes and
looks at it again; it makes a single request; or it makes its result of the last reply and releases the
lock. Between these the threads follow each other in any order.

The order in which operations enter the lock is kept, and so is everything that becomes visible, each
with the operation that it belongs to.
-/

namespace CatalogSteward.Lifecycle
open Act

/-- A call through one of the clients. -/
structure Job where
  call : Call
  client : Nat

structure Program where
  access : Nat → Access
  jobs : Nat → List Job

/-- A job among those of its thread. -/
structure Op where
  thread : Nat
  index : Nat
  deriving DecidableEq, Repr

def Program.job? (P : Program) (o : Op) : Option Job := (P.jobs o.thread)[o.index]?

abbrev Result := Except Failure Answer

/-- What a thread is at: between two jobs, on its way into the lock, or inside with the requests that it
still has to make. -/
inductive Stage where
  | resting
  | waiting (job : Job) (requests : List Request)
  | inside (job : Job) (reply : Except Failure Reply) (requests : List Request)

def Stage.isResting : Stage → Bool
  | .resting => true
  | _ => false

theorem Stage.isResting_iff {stage : Stage} : stage.isResting = true ↔ stage = .resting := by
  cases stage <;> simp [isResting]

structure Worker where
  finished : List Result
  stage : Stage

/-- The world with all the clients; the client in the world is the one that was used last. -/
structure Shared where
  world : World
  clients : Nat → Client

def Shared.view (s : Shared) (client : Nat) : World := { s.world with client := s.clients client }

@[simp] theorem Shared.server_view (s : Shared) (client : Nat) :
    (s.view client).server = s.world.server := rfl

@[simp] theorem Shared.client_view (s : Shared) (client : Nat) :
    (s.view client).client = s.clients client := rfl

/-- Carries out an operation with one of the clients. -/
def Shared.run {α : Type} (s : Shared) (client : Nat) (a : Act α) : Except Failure α × Shared :=
  ((a (s.view client)).1,
    ⟨(a (s.view client)).2, Function.update s.clients client (a (s.view client)).2.client⟩)

structure System where
  shared : Shared
  threads : Threads
  workers : Nat → Worker
  log : List (Op × Happening)
  order : List Op

/-! ### The parts of an operation -/

/-- Everything before the lock: the answer of a call that does not need it, or the requests. -/
def Call.begin (access : Access) (c : Call) : Act (Answer ⊕ List Request) := do
  let qs ← c.prepare access
  if qs = [] then
    let answer ← c.settle
    return .inl (← checked (c.deliver answer))
  else return .inr qs

def Call.close (c : Call) (reply : Except Failure Reply) : Act Answer := do
  let answer ← c.conclude (← liftM reply)
  checked (c.deliver answer)

namespace System

/-- All threads rest, and nobody has come to the lock. -/
def start (key : String) (shared : Shared) : System where
  shared := shared
  threads := .start key
  workers := fun _ => ⟨[], .resting⟩
  log := []
  order := []

def current (s : System) (t : Nat) : Op := ⟨t, (s.workers t).finished.length⟩

def result? (s : System) (o : Op) : Option Result := (s.workers o.thread).finished[o.index]?

def setStage (s : System) (t : Nat) (stage : Stage) : System :=
  { s with workers := Function.update s.workers t ⟨(s.workers t).finished, stage⟩ }

def finish (s : System) (t : Nat) (result : Result) : System :=
  { s with workers := Function.update s.workers t ⟨(s.workers t).finished ++ [result], .resting⟩ }

/-- What has become visible in a world since an earlier one. -/
def news (before after : World) : List Happening := after.trace.drop before.trace.length

/-- Exchanges what is shared for what a part of a thread's operation has made of it. -/
def advance (s : System) (t : Nat) (shared : Shared) : System :=
  { s with
    shared := shared
    log := s.log ++ (news s.shared.world shared.world).map fun h => (s.current t, h) }

@[simp] theorem workers_setStage (s : System) (t : Nat) (stage : Stage) :
    (s.setStage t stage).workers t = ⟨(s.workers t).finished, stage⟩ := Function.update_self ..

@[simp] theorem workers_finish (s : System) (t : Nat) (result : Result) :
    (s.finish t result).workers t = ⟨(s.workers t).finished ++ [result], .resting⟩ :=
  Function.update_self ..

@[simp] theorem workers_advance (s : System) (t : Nat) (shared : Shared) :
    (s.advance t shared).workers = s.workers := rfl

/-! ### Events -/

inductive Event where
  | begin (thread : Nat)
  | acquire (thread : Nat)
  | wake (thread : Nat)
  | request (thread : Nat)
  | release (thread : Nat)
  deriving DecidableEq, Repr

def Event.thread : Event → Nat
  | .begin t => t
  | .acquire t => t
  | .wake t => t
  | .request t => t
  | .release t => t

def begin? (P : Program) (s : System) (t : Nat) : Option System :=
  match (s.workers t).stage, P.job? (s.current t) with
  | .resting, some job =>
    match s.shared.run job.client (job.call.begin (P.access job.client)) with
    | (.ok (.inl answer), shared) => some ((s.advance t shared).finish t (.ok answer))
    | (.ok (.inr requests), shared) => some ((s.advance t shared).setStage t (.waiting job requests))
    | (.error f, shared) => some ((s.advance t shared).finish t (.error f))
  | _, _ => none

/-- A thread on its way into the lock is inside as soon as it holds the lock. -/
def enter (s : System) (t : Nat) (job : Job) (requests : List Request) : System :=
  if s.threads.phase? t = some (.holding job.call.mode) then
    { s.setStage t (.inside job (.ok .nothing) requests) with order := s.order ++ [s.current t] }
  else s

theorem workers_enter_others {s : System} {t v : Nat} {job : Job} {requests : List Request}
    (hv : v ≠ t) : (s.enter t job requests).workers v = s.workers v := by
  rw [enter]
  split_ifs
  · exact Function.update_of_ne hv ..
  · rfl

def acquire? (s : System) (t : Nat) : Option System :=
  match (s.workers t).stage with
  | .waiting job requests =>
    (s.threads.step? (.acquire t job.call.mode)).map fun threads =>
      enter { s with threads := threads } t job requests
  | _ => none

def wake? (s : System) (t : Nat) : Option System :=
  match (s.workers t).stage with
  | .waiting job requests =>
    (s.threads.step? (.wake t)).map fun threads => enter { s with threads := threads } t job requests
  | _ => none

/-- A request that fails is the last one. -/
def request? (P : Program) (s : System) (t : Nat) : Option System :=
  match (s.workers t).stage with
  | .inside job (.ok _) (q :: qs) =>
    match s.shared.run job.client (q.perform (P.access job.client)) with
    | (.ok reply, shared) => some ((s.advance t shared).setStage t (.inside job (.ok reply) qs))
    | (.error f, shared) => some ((s.advance t shared).setStage t (.inside job (.error f) []))
  | _ => none

def release? (s : System) (t : Nat) : Option System :=
  match (s.workers t).stage with
  | .inside job reply [] =>
    (s.threads.step? (.release t)).map fun threads =>
      let (result, shared) := s.shared.run job.client (job.call.close reply)
      { (s.advance t shared).finish t result with threads := threads }
  | _ => none

def step? (P : Program) (s : System) : Event → Option System
  | .begin t => s.begin? P t
  | .acquire t => s.acquire? t
  | .wake t => s.wake? t
  | .request t => s.request? P t
  | .release t => s.release? t

def run? (P : Program) (s : System) : List Event → Option System
  | [] => some s
  | e :: es => (s.step? P e).bind fun u => u.run? P es

theorem step?_others {P : Program} {s u : System} {e : Event} (h : s.step? P e = some u) {v : Nat}
    (hv : v ≠ e.thread) : u.workers v = s.workers v := by
  cases e with
  | «begin» t =>
      simp only [step?, begin?] at h
      split at h
      · split at h <;> obtain rfl := Option.some.inj h <;> exact Function.update_of_ne hv ..
      · cases h
  | acquire t =>
      simp only [step?, acquire?] at h
      split at h
      · obtain ⟨threads, -, rfl⟩ := Option.map_eq_some_iff.mp h
        exact workers_enter_others hv
      · cases h
  | wake t =>
      simp only [step?, wake?] at h
      split at h
      · obtain ⟨threads, -, rfl⟩ := Option.map_eq_some_iff.mp h
        exact workers_enter_others hv
      · cases h
  | request t =>
      simp only [step?, request?] at h
      split at h
      · split at h <;> obtain rfl := Option.some.inj h <;> exact Function.update_of_ne hv ..
      · cases h
  | release t =>
      simp only [step?, release?] at h
      split at h
      · obtain ⟨threads, -, rfl⟩ := Option.map_eq_some_iff.mp h
        exact Function.update_of_ne hv ..
      · cases h

/-- What every event preserves holds in every state that a run reaches. -/
theorem run?_induction {P : Program} {motive : System → Prop} {s u : System} {es : List Event}
    (hstep : ∀ {s e u}, s.step? P e = some u → motive s → motive u) (hs : motive s)
    (h : s.run? P es = some u) : motive u := by
  induction es generalizing s with
  | nil =>
      obtain rfl := Option.some.inj h
      exact hs
  | cons e es ih =>
      obtain ⟨v, hv, h⟩ := Option.bind_eq_some_iff.mp h
      exact ih (hstep hv hs) h

theorem run?_others {P : Program} {s u : System} {es : List Event} (h : s.run? P es = some u) {v : Nat}
    (hv : ∀ e ∈ es, v ≠ e.thread) : u.workers v = s.workers v := by
  induction es generalizing s with
  | nil =>
      obtain rfl := Option.some.inj h
      rfl
  | cons e es ih =>
      obtain ⟨w, hw, h⟩ := Option.bind_eq_some_iff.mp h
      have hrest := ih h fun e' he' => hv e' (List.mem_cons_of_mem e he')
      exact hrest.trans (step?_others hw (hv e List.mem_cons_self))

def Quiet (s : System) : Prop := ∀ t, (s.workers t).stage = .resting

end System

/-! ### One operation after another -/

/-- Carries out operations one after another, each to its end. -/
def serially (P : Program) : List Op → Shared → List (Option Result) × Shared
  | [], s => ([], s)
  | o :: os, s =>
    match P.job? o with
    | none => (none :: (serially P os s).1, (serially P os s).2)
    | some job =>
      let (result, u) := s.run job.client (job.call.run (P.access job.client))
      (some result :: (serially P os u).1, (serially P os u).2)

/-- The parts of an operation that needs the lock make up the operation. -/
theorem Call.run_eq_parts (access : Access) (c : Call) :
    c.run access = (do
      match ← c.begin access with
      | .inl answer => return answer
      | .inr qs => checked (c.deliver (← locked c.mode access.target (c.body access qs)))) := by
  rw [run_eq, staged, Call.begin, bind_assoc]
  refine congrArg (c.prepare access >>= ·) (funext fun qs => ?_)
  by_cases hqs : qs = []
  · rw [if_pos hqs, if_pos hqs]
    simp only [bind_assoc, pure_bind, bind_pure]
  · rw [if_neg hqs, if_neg hqs, pure_bind]

end CatalogSteward.Lifecycle
