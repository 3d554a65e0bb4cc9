import CatalogSteward.Extension.Lifecycle
import CatalogSteward.Proofs.Act

/-!
# Operations side by side

Two operations are coupled by a relation of worlds if they take related worlds to results that agree, or to
the same failure, and to related worlds again. Operations are coupled as soon as their parts are. A
conversation with the server looks at the server, the client and the locks alone, and tells the console what it
does, so it goes the same way in any two worlds that share these, whatever else is different about them.
-/

namespace CatalogSteward

namespace Act

variable {α β : Type} {R : α → α → Prop} {S : β → β → Prop} {K : World → World → Prop}

/-- Two results that are related, or one failure. -/
inductive Agreed (R : α → α → Prop) : Except Failure α → Except Failure α → Prop
  | ok {x y : α} (h : R x y) : Agreed R (.ok x) (.ok y)
  | error (f : Failure) : Agreed R (.error f) (.error f)

theorem Agreed.eq {r s : Except Failure α} (h : Agreed Eq r s) : r = s := by
  cases h with
  | ok h => rw [h]
  | error f => rfl

theorem Agreed.refl (h : ∀ x, R x x) (r : Except Failure α) : Agreed R r r := by
  cases r with
  | error f => exact .error f
  | ok x => exact .ok (h x)

/-- What comes of two operations, each in a world of its own, agrees. -/
def CoupledFrom (K : World → World → Prop) (R : α → α → Prop) (w v : World) (a b : Act α) : Prop :=
  Agreed R (a w).1 (b v).1 ∧ K (a w).2 (b v).2

def Coupled (K : World → World → Prop) (R : α → α → Prop) (a b : Act α) : Prop :=
  ∀ w v, K w v → CoupledFrom K R w v a b

/-! ### Composition -/

namespace CoupledFrom

variable {a b : Act α} {f g : α → Act β} {w v : World}

/-- What comes next is coupled wherever the first of the operations really leads. -/
theorem bind_from (ha : CoupledFrom K R w v a b)
    (hf : ∀ x y u t, a w = (.ok x, u) → R x y → K u t → CoupledFrom K S u t (f x) (g y)) :
    CoupledFrom K S w v (a >>= f) (b >>= g) := by
  obtain ⟨hresult, hafter⟩ := ha
  unfold CoupledFrom
  rw [bind_apply, bind_apply]
  generalize hleft : a w = r at hresult hafter hf ⊢
  generalize b v = s at hresult hafter ⊢
  obtain ⟨r, w'⟩ := r
  obtain ⟨s, v'⟩ := s
  cases hresult with
  | error e => exact ⟨.error e, hafter⟩
  | ok h => exact hf _ _ _ _ rfl h hafter

theorem bind (ha : CoupledFrom K R w v a b) (hf : ∀ x y, R x y → Coupled K S (f x) (g y)) :
    CoupledFrom K S w v (a >>= f) (b >>= g) :=
  ha.bind_from fun x y u t _ h => hf x y h u t

theorem next (ha : CoupledFrom K Eq w v a b) (hf : ∀ x, Coupled K S (f x) (g x)) :
    CoupledFrom K S w v (a >>= f) (b >>= g) :=
  bind ha fun x _ h => h ▸ hf x

theorem outcome (ha : CoupledFrom K R w v a b) : CoupledFrom K (Agreed R) w v (outcome a) (outcome b) :=
  ⟨.ok ha.1, ha.2⟩

end CoupledFrom

namespace Coupled

variable {a b : Act α} {f g : α → Act β}

theorem pure {x y : α} (h : R x y) : Coupled K R (pure x) (pure y) := fun _ _ hw => ⟨.ok h, hw⟩

theorem throw (e : Failure) : Coupled K R (throw e) (throw e) := fun _ _ hw => ⟨.error e, hw⟩

theorem liftM {r s : Except Failure α} (h : Agreed R r s) : Coupled K R (liftM r) (liftM s) :=
  fun _ _ hw => ⟨h, hw⟩

theorem checked (r : Except Error α) : Coupled K Eq (checked r) (checked r) := by
  cases r with
  | error e => exact throw _
  | ok x => exact pure rfl

theorem bind (ha : Coupled K R a b) (hf : ∀ x y, R x y → Coupled K S (f x) (g y)) :
    Coupled K S (a >>= f) (b >>= g) :=
  fun w v hw => (ha w v hw).bind hf

theorem next (ha : Coupled K Eq a b) (hf : ∀ x, Coupled K S (f x) (g x)) : Coupled K S (a >>= f) (b >>= g) :=
  fun w v hw => (ha w v hw).next hf

theorem ask {f g : World → Act α} (h : ∀ w v, K w v → Coupled K R (f w) (g v)) :
    Coupled K R (get >>= f) (get >>= g) :=
  fun w v hw => h w v hw w v hw

theorem modify {f g : World → World} (h : ∀ w v, K w v → K (f w) (g v)) :
    Coupled K Eq (modify f) (modify g) :=
  fun w v hw => ⟨.ok rfl, h w v hw⟩

theorem outcome (ha : Coupled K R a b) : Coupled K (Agreed R) (outcome a) (outcome b) :=
  fun w v hw => (ha w v hw).outcome

theorem always (ha : Coupled K R a b) {after after' : Act Unit} (hafter : Coupled K Eq after after') :
    Coupled K R (always a after) (always b after') := by
  refine ha.outcome.bind fun r s h => ?_
  exact hafter.next fun _ => .liftM h

end Coupled

end Act

open Act

/-! ### What a conversation does not tell apart -/

/-- Related worlds share all that a conversation looks at, and stay related when it changes in both of them
alike, and when the same becomes visible in both of them. -/
structure World.Coupling (K : World → World → Prop) : Prop where
  said {w v : World} (h : K w v) (level : Level) (message : String) : K (w.said level message) (v.said level message)
  server {w v : World} (h : K w v) : v.server = w.server
  client {w v : World} (h : K w v) : v.client = w.client
  locks {w v : World} (h : K w v) : v.locks = w.locks
  setServer {w v : World} (h : K w v) (server : Server) : K { w with server := server } { v with server := server }
  setClient {w v : World} (h : K w v) (client : Client) : K { w with client := client } { v with client := client }
  setLocks {w v : World} (h : K w v) (locks : LockRegistry) : K { w with locks := locks } { v with locks := locks }
  happened {w v : World} (h : K w v) (x : Happening) :
    K { w with trace := w.trace ++ [x] } { v with trace := v.trace ++ [x] }

/-- On consoles that are the same a line is shown in both of the worlds or in none of them. -/
theorem World.said_of_console {K : World → World → Prop} {w v : World} (h : K w v) (hconsole : v.console = w.console)
    (happened : ∀ x, K { w with trace := w.trace ++ [x] } { v with trace := v.trace ++ [x] })
    (level : Level) (message : String) : K (w.said level message) (v.said level message) := by
  have hshows : v.console.shows level = w.console.shows level := by rw [hconsole]
  unfold said
  rw [hshows]
  split
  · exact happened _
  · exact h

/-- Two accesses to one database whose connections may be opened side by side. -/
structure World.Couples (K : World → World → Prop) (access other : Access) : Prop where
  target : access.target = other.target
  expectedVersion :
    access.settings.connection.expectedVersion = other.settings.connection.expectedVersion
  connected {w v : World} (h : K w v) :
    K { w with trace := w.trace ++ [.connect (Client.connectParameters access)] }
      { v with trace := v.trace ++ [.connect (Client.connectParameters other)] }

variable {α : Type} {R : α → α → Prop} {K : World → World → Prop} {a b : Act α} {access other : Access}

namespace World.Coupling

theorem happen (hK : Coupling K) (x : Happening) : Coupled K Eq (happen x) (happen x) :=
  .modify fun _ _ h => hK.happened h x

theorem say (hK : Coupling K) (level : Level) (message : String) :
    Coupled K Eq (say level message) (say level message) := by
  intro w v h
  rw [CoupledFrom, say_apply, say_apply]
  exact ⟨.ok rfl, hK.said h level message⟩

theorem modifyClient (hK : Coupling K) (f : Client → Client) :
    Coupled K Eq (modify fun w => { w with client := f w.client }) (modify fun w => { w with client := f w.client }) :=
  .modify fun w v h => by
    rw [hK.client h]
    exact hK.setClient h _

theorem modifyLocks (hK : Coupling K) (f : LockRegistry → LockRegistry) :
    Coupled K Eq (modify fun w => { w with locks := f w.locks }) (modify fun w => { w with locks := f w.locks }) :=
  .modify fun w v h => by
    rw [hK.locks h]
    exact hK.setLocks h _

/-! ### Locks -/

theorem acquire (hK : Coupling K) (mode : LockMode) (key : String) :
    Coupled K Eq (acquire mode key) (acquire mode key) := by
  refine (hK.modifyLocks fun l => l.ensure key).next fun _ => ?_
  refine .ask fun w v h => ?_
  rw [hK.locks h]
  dsimp only
  split
  · refine .next ?_ fun _ => hK.happen _
    exact hK.modifyLocks fun l => l.put key (((w.locks.lock key).arrive mode).take mode)
  · exact .throw _

theorem release (hK : Coupling K) (mode : LockMode) (key : String) :
    Coupled K Eq (release mode key) (release mode key) := by
  refine .ask fun w v h => ?_
  rw [hK.locks h]
  cases (w.locks.lock key).release mode with
  | error e => exact .throw _
  | ok lock => exact (hK.modifyLocks fun l => l.put key lock).next fun _ => hK.happen _

theorem locked (hK : Coupling K) (mode : LockMode) (key : String) (ha : Coupled K R a b) :
    Coupled K R (locked mode key a) (locked mode key b) :=
  (hK.acquire mode key).next fun _ => ha.always (hK.release mode key)

end World.Coupling

/-! ### Worlds that share what is kept -/

/-- A change of worlds that has to do with none of the environment, the console and the trace. -/
def World.Spares (f : World → World) : Prop :=
  ∀ w environment console trace,
    f { w with environment := environment, console := console, trace := trace } =
      { f w with environment := environment, console := console, trace := trace }

theorem World.Spares.shown {f : World → World} (h : Spares f) (w : World) :
    (f w).environment = w.environment ∧ (f w).console = w.console ∧ (f w).trace = w.trace := by
  have hself := h w w.environment w.console w.trace
  have henvironment := congrArg World.environment hself
  have hconsole := congrArg World.console hself
  have htrace := congrArg World.trace hself
  exact ⟨henvironment, hconsole, htrace⟩

/-- Related worlds differ in no more than the environment, the console and the trace, and stay related when
something else changes in both of them alike, and when the same is said or happens in both of them. -/
structure World.Sharing (K : World → World → Prop) : Prop where
  rest {w v : World} (h : K w v) :
    v = { w with environment := v.environment, console := v.console, trace := v.trace }
  map {w v : World} (h : K w v) {f : World → World} (hf : World.Spares f) : K (f w) (f v)
  said {w v : World} (h : K w v) (level : Level) (message : String) : K (w.said level message) (v.said level message)
  happened {w v : World} (h : K w v) (x : Happening) :
    K { w with trace := w.trace ++ [x] } { v with trace := v.trace ++ [x] }

namespace World.Sharing

theorem coupling (hK : Sharing K) : Coupling K where
  said := hK.said
  server h := by rw [hK.rest h]
  client h := by rw [hK.rest h]
  locks h := by rw [hK.rest h]
  setServer h server := hK.map h (f := fun w => { w with server := server }) fun _ _ _ _ => rfl
  setClient h client := hK.map h (f := fun w => { w with client := client }) fun _ _ _ _ => rfl
  setLocks h locks := hK.map h (f := fun w => { w with locks := locks }) fun _ _ _ _ => rfl
  happened := hK.happened

/-- Looking at a world for something that related worlds share. -/
theorem ask (hK : Sharing K) {f g : World → Act α}
    (hg : ∀ w environment console trace,
      g { w with environment := environment, console := console, trace := trace } = g w)
    (h : ∀ w, Coupled K R (f w) (g w)) : Coupled K R (get >>= f) (get >>= g) := by
  refine .ask fun w v hw => ?_
  have hv : g v = g w := (congrArg g (hK.rest hw)).trans (hg w _ _ _)
  rw [hv]
  exact h w

theorem modify (hK : Sharing K) {f : World → World} (hf : Spares f) :
    Coupled K Eq (modify f) (modify f) :=
  .modify fun _ _ hw => hK.map hw hf

theorem onDisk (hK : Sharing K) (a : DiskAct α) : Coupled K Eq (onDisk a) (onDisk a) := by
  intro w v hw
  have hdisk : v.disk = w.disk := by rw [hK.rest hw]
  rw [CoupledFrom, onDisk_apply, onDisk_apply, hdisk]
  exact ⟨.refl (fun _ => rfl) _, hK.map hw (f := fun u => { u with disk := (a w.disk).2 }) fun _ _ _ _ => rfl⟩

/-! ### The audit trail -/

theorem ticket (hK : Sharing K) : Coupled K Eq ticket ticket := by
  refine hK.ask (fun _ _ _ _ => rfl) fun w => ?_
  exact .next (hK.modify fun _ _ _ _ => rfl) fun _ => .pure rfl

theorem correlated (hK : Sharing K) (operation : String) (h : Coupled K R a b) :
    Coupled K R (correlated operation a) (correlated operation b) := by
  refine hK.ticket.next fun id => ?_
  exact .next (hK.modify fun _ _ _ _ => rfl) fun _ => h.always (hK.modify fun _ _ _ _ => rfl)

theorem record (hK : Sharing K) (e : AuditEvent) : Coupled K Eq (record e) (record e) := by
  refine hK.ask (fun _ _ _ _ => rfl) fun w => ?_
  cases w.trail with
  | none => exact .pure rfl
  | some trail =>
      refine hK.ask (fun _ _ _ _ => rfl) fun w => ?_
      refine .next (hK.onDisk _) fun words => ?_
      cases words with
      | none => exact .pure rfl
      | some words => exact hK.coupling.say _ _

end World.Sharing

/-! ### Talking to a server -/

section
open World (Coupling Couples)

variable (hK : Coupling K) (h : Couples K access other)
include hK

theorem Client.close_coupled : Coupled K Eq close close := by
  have hforget := hK.modifyClient fun c => { c with link := none }
  refine .ask fun w v h => ?_
  rw [hK.client h]
  dsimp only
  split
  · exact (hK.happen _).next fun _ => hforget
  · exact hforget

include h

namespace Client

theorem connection_coupled : Coupled K Eq (connection access) (connection other) := by
  refine .ask fun w v hw => ?_
  rw [hK.client hw]
  dsimp only
  split
  · exact .pure rfl
  · rw [h.target]
    refine (hK.say _ _).next fun _ => ?_
    refine .next (.modify fun _ _ hw => h.connected hw) fun _ => ?_
    refine .ask fun w v hw => ?_
    rw [hK.server hw]
    refine .next (.modify fun _ _ hw => hK.setServer hw _) fun _ => ?_
    split
    · exact .throw _
    · exact .throw _
    all_goals
      refine .next ?_ fun _ => .pure rfl
      exact hK.modifyClient fun c => { c with link := some ⟨false, w.server.version⟩ }

theorem serverVersion_coupled : Coupled K Eq (serverVersion access) (serverVersion other) := by
  have hlearn (n : Int) : Coupled K Eq (do
      modify fun w => { w with client := { w.client with knownVersion := some n } }
      return n) (do
      modify fun w => { w with client := { w.client with knownVersion := some n } }
      return n) := (hK.modifyClient fun c => { c with knownVersion := some n }).next fun _ => .pure rfl
  unfold serverVersion
  rw [← h.expectedVersion]
  refine .ask fun w v hw => ?_
  rw [hK.client hw]
  cases w.client.knownVersion with
  | some n => exact .pure rfl
  | none =>
      dsimp only
      split
      · split
        · exact .next (.pure rfl) hlearn
        · exact .next (.throw _) hlearn
        · exact .next (.throw _) hlearn
      · refine .next (connection_coupled hK h) fun _ => ?_
        exact .next (.pure rfl) hlearn

theorem requireExtensions_coupled (resource : String) :
    Coupled K Eq (requireExtensions access resource) (requireExtensions other resource) := by
  refine .next (serverVersion_coupled hK h) fun n => ?_
  split
  · exact .throw _
  · exact .pure rfl

theorem send_coupled (context text : String) (parameters : Option (List Json)) :
    Coupled K Eq (send access context text parameters) (send other context text parameters) := by
  refine .next (hK.say _ _) fun _ => ?_
  refine .next (connection_coupled hK h) fun _ => ?_
  refine .next (hK.happen _) fun _ => ?_
  refine .ask fun w v hw => ?_
  rw [hK.server hw]
  refine .next (.modify fun u t hu => ?_) fun _ => ?_
  · rw [hK.client hu]
    exact hK.setClient (hK.setServer hu (w.server.answer text parameters).2) _
  · split
    · exact .pure rfl
    · exact .throw _
    · exact .throw _

theorem execute_coupled (context : String) (s : Statement) :
    Coupled K Eq (execute access context s) (execute other context s) :=
  .next (send_coupled hK h _ _ _) fun _ => .pure rfl

theorem fetch_coupled (context : String) (q : Query) :
    Coupled K Eq (fetch access context q) (fetch other context q) :=
  send_coupled hK h _ _ _

end Client

namespace Gateway
open Client

theorem create_coupled (d : Declared) : Coupled K Eq (create access d) (create other d) := by
  refine .next (requireExtensions_coupled hK h _) fun _ => ?_
  exact .next (hK.say _ _) fun _ => execute_coupled hK h _ _

theorem find_coupled (name : String) : Coupled K Eq (find access name) (find other name) := by
  refine .next (fetch_coupled hK h _ _) fun rows => ?_
  split
  · exact .pure rfl
  · split
    · exact .pure rfl
    · exact .throw _

theorem has_coupled (name : String) : Coupled K Eq (has access name) (has other name) :=
  .next (fetch_coupled hK h _ _) fun _ => .pure rfl

theorem relocate_coupled (name schema : String) :
    Coupled K Eq (relocate access name schema) (relocate other name schema) := by
  refine .next (.checked _) fun schema => ?_
  exact .next (hK.say _ _) fun _ => execute_coupled hK h _ _

theorem reversion_coupled (name : String) (version : Option String) :
    Coupled K Eq (reversion access name version) (reversion other name version) :=
  .next (hK.say _ _) fun _ => execute_coupled hK h _ _

theorem drop_coupled (name : String) : Coupled K Eq (drop access name) (drop other name) :=
  .next (hK.say _ _) fun _ => execute_coupled hK h _ _

theorem list_coupled : Coupled K Eq (list access) (list other) := by
  refine .next (requireExtensions_coupled hK h _) fun _ => ?_
  refine .next (fetch_coupled hK h _ _) fun rows => ?_
  split
  · exact .pure rfl
  · exact .throw _

end Gateway

namespace Lifecycle
open Client Gateway

theorem readHeld_coupled (identity : String) :
    Coupled K Eq (readHeld access identity) (readHeld other identity) := by
  refine .next (find_coupled hK h _) fun observed => ?_
  split
  · exact .next (hK.say _ _) fun _ => .pure rfl
  · exact .pure rfl

theorem create_coupled (desired : Declared) : Coupled K Eq (create access desired) (create other desired) := by
  unfold create
  rw [← h.target]
  refine .next (requireExtensions_coupled hK h _) fun _ => ?_
  refine .next (.checked _) fun _ => ?_
  exact hK.locked _ _ (.next (Gateway.create_coupled hK h _) fun _ => readHeld_coupled hK h _)

theorem installed_coupled (identity : String) :
    Coupled K Eq (installed access identity) (installed other identity) := by
  unfold installed
  rw [← h.target]
  refine .next (requireExtensions_coupled hK h _) fun _ => ?_
  split
  · exact .pure rfl
  · exact hK.locked _ _ (has_coupled hK h _)

theorem read_coupled (identity : String) : Coupled K Eq (read access identity) (read other identity) := by
  unfold read
  rw [← h.target]
  refine .next (requireExtensions_coupled hK h _) fun _ => ?_
  split
  · exact .pure rfl
  · exact hK.locked _ _ (readHeld_coupled hK h _)

theorem update_coupled (identity : String) (previous : Observed) (desired : Declared) :
    Coupled K Eq (update access identity previous desired) (update other identity previous desired) := by
  unfold update
  rw [← h.target]
  refine .next (requireExtensions_coupled hK h _) fun _ => ?_
  refine .next (.checked _) fun changes => ?_
  split
  · exact .next (hK.say _ _) fun _ => .pure rfl
  · refine .next (hK.locked _ _ ?_) fun _ => .pure rfl
    have hread := readHeld_coupled hK h identity
    obtain ⟨schema, version⟩ := changes
    cases version with
    | none =>
        cases schema with
        | none => exact hread
        | some schema => exact .next (relocate_coupled hK h _ _) fun _ => hread
    | some version =>
        have hversion := fun _ : PUnit =>
          Coupled.next (reversion_coupled hK h identity (some version)) fun _ => hread
        cases schema with
        | none => exact hversion ()
        | some schema => exact .next (relocate_coupled hK h _ _) hversion

theorem delete_coupled (identity : String) : Coupled K Eq (delete access identity) (delete other identity) := by
  unfold delete
  rw [← h.target]
  refine .next (requireExtensions_coupled hK h _) fun _ => ?_
  exact .next (.checked _) fun _ => hK.locked _ _ (drop_coupled hK h _)

theorem adopt_coupled (name : String) : Coupled K Eq (adopt access name) (adopt other name) := by
  refine .next (read_coupled hK h name) fun found => ?_
  cases found with
  | some observed => exact .pure rfl
  | none => exact .throw _

end Lifecycle

end

end CatalogSteward
