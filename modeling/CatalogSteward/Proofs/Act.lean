import CatalogSteward.World

/-!
# Operations as functions of the world

An operation takes a world to a result and the world afterwards. Here each of the building blocks is
evaluated on a world, so that a composed operation can be followed step by step. What an operation makes
visible is said by the kind of happenings that it adds to the trace; this composes.
-/

namespace CatalogSteward

variable {α β γ : Type}

theorem except_bind_eq_ok_iff {ε : Type} {x : Except ε α} {f : α → Except ε β} {b : β} :
    (x >>= f) = .ok b ↔ ∃ a, x = .ok a ∧ f a = .ok b := by
  cases x with
  | error e => exact ⟨fun h => (by cases h), fun ⟨_, h, _⟩ => by cases h⟩
  | ok a => exact ⟨fun h => ⟨a, rfl, h⟩, fun ⟨_, ha, h⟩ => Except.ok.inj ha ▸ h⟩

/-- The world after a line that may be too quiet to be shown. -/
def World.said (w : World) (level : Level) (message : String) : World :=
  { w with trace :=
      if w.console.shows level then w.trace ++ [.line level.toErrors (level.tag ++ " " ++ message)]
      else w.trace }

namespace Act

/-! ### Composition -/

theorem bind_apply (a : Act α) (f : α → Act β) (w : World) :
    (a >>= f) w =
      match a w with
      | (.ok x, w) => f x w
      | (.error e, w) => (.error e, w) := by
  change (ExceptT.bindCont f (a w).1 (a w).2) = _
  rcases a w with ⟨_ | _, w⟩ <;> rfl

theorem bind_ok {a : Act α} {x : α} {w u : World} (h : a w = (.ok x, u)) (f : α → Act β) :
    (a >>= f) w = f x u := by
  rw [bind_apply, h]

theorem bind_error {a : Act α} {e : Failure} {w u : World} (h : a w = (.error e, u))
    (f : α → Act β) : (a >>= f) w = (.error e, u) := by
  rw [bind_apply, h]

/-- What comes to a result has come to one in both of its parts. -/
theorem bind_eq_ok_iff {a : Act α} {f : α → Act β} {y : β} {w v : World} :
    (a >>= f) w = (.ok y, v) ↔ ∃ x u, a w = (.ok x, u) ∧ f x u = (.ok y, v) := by
  rcases ha : a w with ⟨e | x, u⟩
  · rw [bind_error ha]
    constructor
    · intro h
      cases h
    · rintro ⟨_, _, h, -⟩
      cases h
  · rw [bind_ok ha]
    constructor
    · exact fun h => ⟨x, u, rfl, h⟩
    · rintro ⟨_, _, h, hf⟩
      cases h
      exact hf

@[simp] theorem modify_apply (f : World → World) (w : World) : (modify f : Act Unit) w = (.ok (), f w) :=
  rfl

@[simp] theorem get_bind (f : World → Act α) (w : World) : ((get : Act World) >>= f) w = f w w := rfl

@[simp] theorem fail_bind (e : Error) (f : α → Act β) : ((fail e : Act α) >>= f) = fail e := rfl

theorem map_apply (g : α → β) (a : Act α) (w : World) :
    (g <$> a) w = ((a w).1.map g, (a w).2) := by
  rw [map_eq_pure_bind, bind_apply]
  rcases a w with ⟨_ | _, u⟩ <;> rfl

@[simp] theorem liftM_apply (r : Except Failure α) (w : World) : (liftM r : Act α) w = (r, w) := rfl

@[simp] theorem happen_apply (h : Happening) (w : World) :
    happen h w = (.ok (), { w with trace := w.trace ++ [h] }) := rfl

@[simp] theorem say_apply (level : Level) (message : String) (w : World) :
    say level message w = (.ok (), w.said level message) := by
  rw [say, get_bind, World.said]
  cases w.console.shows level <;> rfl

@[simp] theorem checked_ok (x : α) : checked (.ok x) = (pure x : Act α) := rfl

@[simp] theorem checked_error (e : Error) : checked (.error e) = (fail e : Act α) := rfl

theorem onDisk_apply (a : DiskAct α) (w : World) :
    onDisk a w = ((a w.disk).1, { w with disk := (a w.disk).2 }) := rfl

theorem outcome_apply (a : Act α) (w : World) : outcome a w = (.ok (a w).1, (a w).2) := rfl

/-- What is done afterwards is done in any case; its own failure comes before that of the operation. -/
theorem always_apply (a : Act α) (after : Act Unit) (w : World) :
    always a after w =
      match after (a w).2 with
      | (.ok _, u) => ((a w).1, u)
      | (.error e, u) => (.error e, u) := by
  rw [always, bind_ok (outcome_apply a w), bind_apply]
  rcases after (a w).2 with ⟨_ | _, u⟩ <;> rfl

theorem map_always (g : α → β) (a : Act α) (after : Act Unit) :
    g <$> always a after = always (g <$> a) after := by
  funext w
  rw [map_apply, always_apply, always_apply, map_apply]
  rcases after (a w).2 with ⟨_ | _, u⟩ <;> rfl

/-! ### Locks -/

theorem map_locked (g : α → β) (mode : LockMode) (key : String) (a : Act α) :
    g <$> locked mode key a = locked mode key (g <$> a) := by
  rw [locked, locked, ← map_always, map_bind]

theorem acquire_ok {mode : LockMode} {key : String} {w : World}
    (h : ((w.locks.ensure key).lock key).admits mode = true) :
    acquire mode key w = (.ok (), { w with
      locks := (w.locks.ensure key).put key ((((w.locks.ensure key).lock key).arrive mode).take mode)
      trace := w.trace ++ [.lock mode key] }) := by
  rw [acquire, bind_ok (modify_apply _ w), get_bind]
  simp only [h, if_true]
  rfl

theorem acquire_error {mode : LockMode} {key : String} {w : World}
    (h : ((w.locks.ensure key).lock key).admits mode = false) :
    acquire mode key w = (.error (.fault (.deadlock key)), { w with locks := w.locks.ensure key }) := by
  rw [acquire, bind_ok (modify_apply _ w), get_bind]
  simp only [h, Bool.false_eq_true, if_false]
  rfl

theorem release_ok {mode : LockMode} {key : String} {w : World} {lock : Lock}
    (h : (w.locks.lock key).release mode = .ok lock) :
    release mode key w = (.ok (), { w with
      locks := w.locks.put key lock, trace := w.trace ++ [.unlock mode key] }) := by
  rw [release, get_bind, h]
  rfl

theorem release_error {mode : LockMode} {key : String} {w : World} {e : NotHeld}
    (h : (w.locks.lock key).release mode = .error e) :
    release mode key w = (.error (.fault (.notHeld e)), w) := by
  rw [release, get_bind, h]
  rfl

/-! ### What an operation makes visible -/

/-- An operation that adds to the trace, and nothing but happenings of some kind. -/
def Emits (kind : Happening → Prop) (a : Act α) : Prop :=
  ∀ w, ∃ added, (a w).2.trace = w.trace ++ added ∧ ∀ h ∈ added, kind h

variable {kind : Happening → Prop} {a : Act α} {f : α → Act β}

theorem Emits.of_trace (h : ∀ w, (a w).2.trace = w.trace) : Emits kind a :=
  fun w => ⟨[], by rw [h, List.append_nil], by simp⟩

theorem Emits.mono {kind' : Happening → Prop} (ha : Emits kind a) (h : ∀ x, kind x → kind' x) :
    Emits kind' a := by
  intro w
  obtain ⟨added, htrace, hkind⟩ := ha w
  exact ⟨added, htrace, fun x hx => h x (hkind x hx)⟩

theorem Emits.bind (ha : Emits kind a) (hf : ∀ x, Emits kind (f x)) : Emits kind (a >>= f) := by
  intro w
  obtain ⟨added, htrace, hkind⟩ := ha w
  rcases h : a w with ⟨e | x, u⟩ <;> rw [h] at htrace
  · rw [bind_error h]
    exact ⟨added, htrace, hkind⟩
  · obtain ⟨more, hmore, hkind'⟩ := hf x u
    rw [bind_ok h]
    refine ⟨added ++ more, ?_, ?_⟩
    · rw [hmore, htrace, List.append_assoc]
    · intro h hh
      exact (List.mem_append.mp hh).elim (hkind h) (hkind' h)

theorem Emits.get_bind {f : World → Act β} (hf : ∀ w, Emits kind (f w)) : Emits kind (get >>= f) :=
  fun w => hf w w

theorem Emits.happen {x : Happening} (h : kind x) : Emits kind (happen x) :=
  fun w => ⟨[x], rfl, by simpa using h⟩

theorem Emits.say (h : ∀ toErrors markup, kind (.line toErrors markup)) (level : Level)
    (message : String) : Emits kind (say level message) := by
  refine get_bind fun w => ?_
  split
  · exact happen (h _ _)
  · exact of_trace fun _ => rfl

theorem Emits.checked (x : Except Error α) : Emits kind (checked x) := by
  cases x <;> exact of_trace fun _ => rfl

end Act

end CatalogSteward
