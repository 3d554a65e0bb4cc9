import CatalogSteward.Proofs.Lifecycle.Brackets
import CatalogSteward.Proofs.Lifecycle.Course

/-!
# The discipline of operations

An operation that talks to the server may take the lock, once it is free, and gives it back; while it is
held, no lock is asked for. Operations that only read may be followed by any others, and whatever touches
neither the server nor the lock may happen in between. Every call is such an operation.
-/

namespace CatalogSteward

/-- A failure that comes from a lock: one that is never admitted, or one that was not held. -/
def Failure.isOfLock : Failure → Bool
  | .fault (.deadlock _) | .fault (.notHeld _) => true
  | _ => false

/-- A world in which no thread holds a lock or waits for one. -/
def World.Unlocked (w : World) : Prop := ∀ key, (w.locks.lock key).IsFree

open Act

/-! ### What happens besides -/

/-- What only tells something: it touches the trace alone, and neither the server nor a lock has to do with
what is added there. -/
structure Tells (w : World) (o : Option Failure) (u : World) : Prop where
  rest : u = { w with trace := u.trace }
  trace : ∃ added, u.trace = w.trace ++ added ∧
    ∀ h ∈ added, h.isTraffic = false ∧ h.isLocking = false
  failure : ∀ f ∈ o, f.isOfLock = false

namespace Tells

variable {α : Type}

theorem composes : Composes Tells where
  refl w := ⟨rfl, ⟨[], (List.append_nil _).symm, by simp⟩, by simp⟩
  trans := by
    rintro w u v o ⟨hrest, ⟨added, htrace, hadded⟩, -⟩ ⟨hrest', ⟨more, hmore, hidle⟩, hfailure⟩
    refine ⟨?_, ⟨added ++ more, ?_, ?_⟩, hfailure⟩
    · rw [hrest', hrest]
    · rw [hmore, htrace, List.append_assoc]
    · intro x hx
      exact (List.mem_append.mp hx).elim (hadded x) (hidle x)

theorem throw {f : Failure} (h : f.isOfLock = false) : Leads Tells (throw f : Act α) :=
  .throw fun _ => ⟨rfl, ⟨[], (List.append_nil _).symm, by simp⟩, by simpa using h⟩

theorem happen {h : Happening} (htraffic : h.isTraffic = false) (hlocking : h.isLocking = false) :
    Leads Tells (happen h) :=
  fun _ => ⟨rfl, ⟨[h], rfl, by simp [htraffic, hlocking]⟩, by simp [failure?]⟩

theorem say (level : Level) (message : String) : Leads Tells (say level message) := by
  apply Leads.get_bind
  intro w
  split
  · exact happen rfl rfl
  · exact composes.pure ()

end Tells

/-- What touches neither the server nor the connection nor the locks. -/
structure Aside (w : World) (o : Option Failure) (u : World) : Prop where
  trace : ∃ added, u.trace = w.trace ++ added ∧
    ∀ h ∈ added, h.isTraffic = false ∧ h.isLocking = false
  server : u.server = w.server
  client : u.client = w.client
  locks : u.locks = w.locks
  failure : ∀ f ∈ o, f.isOfLock = false

theorem Tells.aside {w u : World} {o : Option Failure} (h : Tells w o u) : Aside w o u := by
  obtain ⟨hrest, htrace, hfailure⟩ := h
  exact ⟨htrace, by rw [hrest], by rw [hrest], by rw [hrest], hfailure⟩

theorem Act.Leads.aside {α : Type} {a : Act α} (h : Leads Tells a) : Leads Aside a :=
  h.mono fun _ _ _ h => h.aside

namespace Aside

variable {α : Type}

/-- Nothing happens at all. -/
theorem unseen {w u : World} {o : Option Failure} (htrace : u.trace = w.trace)
    (hserver : u.server = w.server) (hclient : u.client = w.client) (hlocks : u.locks = w.locks)
    (hfailure : ∀ f ∈ o, f.isOfLock = false) : Aside w o u :=
  ⟨⟨[], by rw [htrace, List.append_nil], by simp⟩, hserver, hclient, hlocks, hfailure⟩

theorem composes : Composes Aside where
  refl w := .unseen rfl rfl rfl rfl (by simp)
  trans := by
    rintro w u v o ⟨⟨added, htrace, hadded⟩, hserver, hclient, hlocks, -⟩
      ⟨⟨more, hmore, hidle⟩, hserver', hclient', hlocks', hfailure⟩
    refine ⟨⟨added ++ more, ?_, ?_⟩, hserver'.trans hserver, hclient'.trans hclient,
      hlocks'.trans hlocks, hfailure⟩
    · rw [hmore, htrace, List.append_assoc]
    · intro x hx
      exact (List.mem_append.mp hx).elim (hadded x) (hidle x)

/-- It makes no difference with which of the failures that have to do with no lock. -/
theorem failing {w u : World} {o : Option Failure} (h : Aside w o u) {f : Failure} (hf : f.isOfLock = false) :
    Aside w (some f) u :=
  ⟨h.trace, h.server, h.client, h.locks, fun _ hg => Option.some.inj hg ▸ hf⟩

theorem modify {f : World → World} (htrace : ∀ w, (f w).trace = w.trace)
    (hserver : ∀ w, (f w).server = w.server) (hclient : ∀ w, (f w).client = w.client)
    (hlocks : ∀ w, (f w).locks = w.locks) : Leads Aside (modify f : Act Unit) :=
  fun w => .unseen (htrace w) (hserver w) (hclient w) (hlocks w) (by simp [failure?])

theorem onDisk {a : DiskAct α} (h : ∀ d f, (a.run d).1 = .error f → f.isOfLock = false) :
    Leads Aside (onDisk a) := by
  intro w
  refine .unseen rfl rfl rfl rfl fun f hf => ?_
  change f ∈ failure? (a.run w.disk).1 at hf
  cases hresult : (a.run w.disk).1 with
  | ok x => rw [hresult] at hf; cases hf
  | error g => rw [hresult] at hf; cases hf; exact h w.disk f hresult

end Aside

/-- A relation that is kept when something else happens besides. -/
def Allows (K R : World → Option Failure → World → Prop) : Prop :=
  ∀ ⦃w o u p v q⦄, R w o u → K u p v → (∀ f ∈ q, f ∈ o ∨ f ∈ p) → R w q v

theorem Allows.tells {R : World → Option Failure → World → Prop} (h : Allows Aside R) : Allows Tells R :=
  fun _ _ _ _ _ _ hR htells hq => h hR htells.aside hq

/-! ### Operations within a session -/

/-- What an operation does that talks to the server and takes the lock in between. -/
structure Disciplined (target : Option String) (w : World) (o : Option Failure) (u : World)
    (added : List Happening) : Prop where
  trace : u.trace = w.trace ++ added
  bracketed : Bracketed target added
  line : w.line.follow added = some u.line
  unlocked : u.Unlocked
  stays : u.server.StaysOpen
  failure : ∀ f ∈ o, f.isOfLock = false

theorem Disciplined.trans {target : Option String} {w u v : World} {o p q : Option Failure}
    {added more : List Happening} (h : Disciplined target w o u added) (k : Disciplined target u p v more)
    (hchange : (∃ x ∈ added, x.isChange = true) → ∀ x ∈ more, x.isStatement = false)
    (hq : ∀ f ∈ q, f ∈ o ∨ f ∈ p) : Disciplined target w q v (added ++ more) where
  trace := by rw [k.trace, h.trace, List.append_assoc]
  bracketed := h.bracketed.append k.bracketed hchange
  line := by rw [Line.follow_append, h.line]; exact k.line
  unlocked := k.unlocked
  stays := k.stays
  failure := fun f hf => (hq f hf).elim (h.failure f) (k.failure f)

/-- The discipline of an operation within a session. An operation that only reads changes nothing. -/
def Obeys (target : Option String) (reads : Bool) (w : World) (o : Option Failure) (u : World) : Prop :=
  w.Unlocked → w.server.StaysOpen →
    ∃ added, Disciplined target w o u added ∧ (reads = true → ∀ h ∈ added, h.isChange = false)

/-- The discipline of an operation that sends no statements. -/
def Prepares (target : Option String) (w : World) (o : Option Failure) (u : World) : Prop :=
  w.Unlocked → w.server.StaysOpen →
    ∃ added, Disciplined target w o u added ∧ ∀ h ∈ added, h.isStatement = false

section
variable {target : Option String} {reads : Bool} {w u v : World} {o p q : Option Failure} {α β : Type}

theorem Aside.prepares (h : Aside w o u) : Prepares target w o u := by
  intro hunlocked hstays
  obtain ⟨⟨added, htrace, hidle⟩, hserver, hclient, hlocks, hfailure⟩ := h
  have hstatement (x : Happening) (hx : x ∈ added) : x.isStatement = false := by
    have hkind := (hidle x hx).1
    cases x <;> first | rfl | cases hkind
  refine ⟨added, ⟨htrace, ?_, ?_, ?_, ?_, hfailure⟩, hstatement⟩
  · apply Bracketed.of_outside
    exact fun x hx => ⟨(hidle x hx).2, hstatement x hx⟩
  · rw [Line.follow_idle _ fun x hx => (hidle x hx).1]
    unfold World.line
    rw [hserver, hclient]
  · unfold World.Unlocked
    rwa [hlocks]
  · rwa [hserver]

theorem Prepares.obeys (h : Prepares target w o u) : Obeys target reads w o u := by
  intro hunlocked hstays
  obtain ⟨added, hdisciplined, hstatement⟩ := h hunlocked hstays
  exact ⟨added, hdisciplined, fun _ x hx => x.not_isChange (hstatement x hx)⟩

theorem Obeys.mono (h : Obeys target true w o u) : Obeys target reads w o u := by
  intro hunlocked hstays
  obtain ⟨added, hdisciplined, hchange⟩ := h hunlocked hstays
  exact ⟨added, hdisciplined, fun _ => hchange rfl⟩

/-- Anything may follow an operation that only reads. -/
theorem Obeys.trans (h : Obeys target true w none u) (k : Obeys target reads u o v) :
    Obeys target reads w o v := by
  intro hunlocked hstays
  obtain ⟨added, hdisciplined, hchange⟩ := h hunlocked hstays
  obtain ⟨more, hmore, hreads⟩ := k hdisciplined.unlocked hdisciplined.stays
  refine ⟨added ++ more, hdisciplined.trans hmore ?_ fun f hf => .inr hf, ?_⟩
  · rintro ⟨x, hx, hc⟩
    exact absurd hc (Bool.eq_false_iff.mp (hchange rfl x hx))
  · intro hreading x hx
    exact (List.mem_append.mp hx).elim (hchange rfl x) (hreads hreading x)

/-- An operation that sends no statements may follow anything. -/
theorem Obeys.then_prepares (h : Obeys target reads w o u) (k : Prepares target u p v)
    (hq : ∀ f ∈ q, f ∈ o ∨ f ∈ p) : Obeys target reads w q v := by
  intro hunlocked hstays
  obtain ⟨added, hdisciplined, hchange⟩ := h hunlocked hstays
  obtain ⟨more, hmore, hstatement⟩ := k hdisciplined.unlocked hdisciplined.stays
  refine ⟨added ++ more, hdisciplined.trans hmore (fun _ => hstatement) hq, ?_⟩
  intro hreading x hx
  exact (List.mem_append.mp hx).elim (hchange hreading x) fun hx => x.not_isChange (hstatement x hx)

theorem Obeys.allowsAside : Allows Aside (Obeys target reads) :=
  fun _ _ _ _ _ _ h k hq => h.then_prepares k.prepares hq

theorem Obeys.bind {a : Act α} {f : α → Act β} (ha : Leads (Obeys target true) a)
    (hf : ∀ x, Leads (Obeys target reads) (f x)) : Leads (Obeys target reads) (a >>= f) := by
  intro w
  have hfirst := ha w
  rcases hw : a w with ⟨e | x, u⟩ <;> rw [hw] at hfirst
  · rw [bind_error hw]
    exact hfirst.mono
  · rw [bind_ok hw]
    exact hfirst.trans (hf x u)

theorem Obeys.bind_prepares {a : Act α} {f : α → Act β} (ha : Leads (Obeys target reads) a)
    (hf : ∀ x, Leads (Prepares target) (f x)) : Leads (Obeys target reads) (a >>= f) := by
  intro w
  have hfirst := ha w
  rcases hw : a w with ⟨e | x, u⟩ <;> rw [hw] at hfirst
  · rw [bind_error hw]
    exact hfirst
  · rw [bind_ok hw]
    exact hfirst.then_prepares (hf x u) fun f hf => .inr hf

end

/-! ### Sections -/

theorem Failure.IsOwed.isOfLock {access : Access} {s : Server} {said : List (String × Option (List Json))}
    {f : Failure} (h : f.IsOwed access s said) : f.isOfLock = false := by
  cases f with
  | fault f => cases f <;> first | rfl | exact h.elim
  | _ => rfl

theorem World.Besides.unlocked {w u : World} (h : w.Besides u) (hw : w.Unlocked) : u.Unlocked := by
  unfold Unlocked
  rwa [h]

section
variable {access : Access} {target : Option String} {α : Type} {a : Act α}

/-- An operation that talks to the server without sending statements. -/
theorem Converses.prepares (h : Leads (Converses access) a) (hsilent : Silent a) :
    Leads (Prepares target) a := by
  intro w hunlocked hstays
  obtain ⟨added, hdialogue, hlocking, hbesides⟩ := h w
  obtain ⟨more, hmore, hstatement⟩ := hsilent w
  obtain rfl : more = added := List.append_cancel_left (hmore.symm.trans hdialogue.trace)
  refine ⟨more, ⟨hdialogue.trace, ?_, hdialogue.line hstays, hbesides.unlocked hunlocked,
    hdialogue.stays hstays, fun f hf => (hdialogue.failure f hf).isOfLock⟩, hstatement⟩
  apply Bracketed.of_outside
  exact fun x hx => ⟨hlocking x hx, hstatement x hx⟩

/-- An operation that talks to the server in one section. -/
theorem Converses.locked (h : Leads (Converses access) a) {mode : LockMode} {key : String}
    (hmode : mode = .shared → Emits (fun h => h.isChange = false) a) :
    Leads (Obeys (some key) (mode = .shared)) (locked mode key a) := by
  intro w hunlocked hstays
  have hadmits := (hunlocked key).admits mode
  obtain ⟨inside, hdialogue, hlocking, hbesides⟩ := h (w.entered mode key)
  have hlocks : (a (w.entered mode key)).2.locks = (w.entered mode key).locks := by rw [hbesides]
  obtain ⟨locks, hlocked, hrestored⟩ := locked_restores (a := a) hadmits rfl hlocks
  have hreads (hshared : mode = .shared) : ∀ x ∈ inside, x.isChange = false := by
    obtain ⟨more, hmore, hkind⟩ := hmode hshared (w.entered mode key)
    obtain rfl : more = inside := List.append_cancel_left (hmore.symm.trans hdialogue.trace)
    exact hkind
  rw [hlocked]
  refine ⟨[.lock mode key] ++ inside ++ [.unlock mode key], ⟨?_, ?_, ?_, ?_, hdialogue.stays hstays,
    fun f hf => (hdialogue.failure f hf).isOfLock⟩, ?_⟩
  · change (a (w.entered mode key)).2.trace ++ _ = _
    rw [hdialogue.trace, World.entered, ← List.append_assoc, ← List.append_assoc]
  · apply Bracketed.held rfl hlocking _ .nil
    rintro ⟨x, hx, hchange⟩
    cases mode with
    | shared => exact absurd hchange (Bool.eq_false_iff.mp (hreads rfl x hx))
    | exclusive => exact ⟨rfl, by simp⟩
  · rw [Line.follow_append, Line.follow_append]
    change (((w.entered mode key).line.follow inside).bind _) = _
    rw [hdialogue.line hstays]
    rfl
  · intro other
    rw [hrestored]
    exact hunlocked other
  · intro hshared x hx
    rcases List.mem_append.mp hx with hx | hx
    · rcases List.mem_append.mp hx with hx | hx
      · rw [List.mem_singleton.mp hx]
        rfl
      · exact hreads (of_decide_eq_true hshared) x hx
    · rw [List.mem_singleton.mp hx]
      rfl

end

/-! ### Calls -/

/-- A query changes nothing. -/
theorem Client.send_queries (access : Access) (context : String) {text : String}
    (parameters : Option (List Json)) (h : "SELECT".toList.isPrefixOf text.toList = true) :
    Emits (fun h => h.isChange = false) (send access context text parameters) := by
  apply Emits.bind (.say (fun _ _ => rfl) _ _)
  intro _
  apply Emits.bind
  · exact (connection_silent access).mono Happening.not_isChange
  intro _
  apply Emits.bind
  · apply Emits.happen
    simp only [Happening.isChange, h, Bool.not_true]
  intro _
  apply Emits.get_bind
  intro w
  apply Emits.bind (.of_trace fun _ => rfl)
  intro _
  split <;> exact .of_trace fun _ => rfl

theorem Gateway.list_queries (access : Access) : Emits (fun h => h.isChange = false) (Gateway.list access) := by
  apply Emits.bind ((Client.requireExtensions_silent access _).mono Happening.not_isChange)
  intro _
  apply Emits.bind (Client.send_queries access _ _ Server.select_all)
  intro rows
  cases rows.mapM Observed.ofRow <;> exact .of_trace fun _ => rfl

namespace Lifecycle

theorem performAll_queries (access : Access) {qs : List Request} (h : ∀ q ∈ qs, q.statement? = none)
    (reply : Reply) : Emits (fun h => h.isChange = false) (performAll access qs reply) := by
  induction qs generalizing reply with
  | nil => exact .of_trace fun _ => rfl
  | cons q qs ih =>
      have hq := h q List.mem_cons_self
      have hsend : Emits (fun h => h.isChange = false) (q.perform access) := by
        rw [Request.perform_eq]
        cases q with
        | find name =>
            apply Emits.bind (.of_trace fun _ => rfl)
            intro _
            apply Emits.bind (Client.send_queries access _ _ Server.select_entry)
            exact fun _ => .of_trace fun _ => rfl
        | has name =>
            apply Emits.bind (.of_trace fun _ => rfl)
            intro _
            apply Emits.bind (Client.send_queries access _ _ Server.select_presence)
            exact fun _ => .of_trace fun _ => rfl
        | _ => cases hq
      exact hsend.bind fun reply => ih (fun q hq => h q (List.mem_cons_of_mem _ hq)) reply

namespace Call

theorem plan_queries {call : Call} (h : call.mode = .shared) {qs : List Request}
    (hplan : call.plan = .ok qs) : ∀ q ∈ qs, q.statement? = none := by
  cases call with
  | read identity =>
      cases hplan
      split <;> simp [Request.statement?]
  | adopt name =>
      cases hplan
      split <;> simp [Request.statement?]
  | _ => cases h

/-- A call takes the lock at most once, and one that shares it only reads. -/
theorem run_obeys (access : Access) (call : Call) :
    Leads (Obeys (some access.target) (call.mode = .shared)) (call.run access) := by
  have hprepare : Leads (Prepares (some access.target)) (call.prepare access) :=
    Converses.prepares (call.prepare_converses access) (call.prepare_silent access)
  have hdelivered (answer : Answer) : Leads (Prepares (some access.target)) (checked (call.deliver answer)) :=
    Converses.prepares (.checked access _) (.checked _)
  rw [run_eq]
  intro w
  have hfirst := hprepare w
  rcases hw : call.prepare access w with ⟨f | qs, u⟩ <;> rw [hw] at hfirst
  · rw [staged, bind_error hw]
    exact hfirst.obeys
  · rw [staged, bind_ok hw]
    refine Obeys.trans hfirst.obeys ?_
    split
    · refine Obeys.bind_prepares ?_ hdelivered u
      exact fun w => Prepares.obeys
        (Converses.prepares (call.settle_converses access) call.settle_silent w)
    · refine Obeys.bind_prepares (Converses.locked (call.body_converses access qs) ?_) hdelivered u
      intro hshared
      have hplan : call.plan = .ok qs := by
        obtain ⟨-, hadmissible, rfl⟩ := prepare_ok hw
        exact plan_of_admissible hadmissible
      apply Emits.bind (performAll_queries access (plan_queries hshared hplan) _)
      exact fun reply => (call.conclude_silent reply).mono Happening.not_isChange

end Call

end Lifecycle

end CatalogSteward
