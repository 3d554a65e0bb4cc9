import CatalogSteward.Proofs.Leads
import CatalogSteward.Proofs.Lifecycle.Fates

/-!
# The dialogue with a server

What can happen while an operation talks to a server, whatever the server does, is said once for all
operations. A connection is opened only when none is open, each attempt uses up the next answer laid down
for it, and a statement is sent only over an open connection. The server changes only by hearing these
statements. A fault is never the operation's own: the connection was disrupted, the rows of an answer are
not as wide as its query asks, or the version that the settings expect has no number. Such a dialogue
follows on another, so it is enough to know it of the few steps that talk to the server themselves.
-/

namespace CatalogSteward

/-! ### The line to a server -/

def Happening.isLocking : Happening → Bool
  | .lock _ _ | .unlock _ _ => true
  | _ => false

/-- Whether a happening has to do with the connection to the server. -/
def Happening.isTraffic : Happening → Bool
  | .connect _ | .disconnect | .sql _ _ => true
  | _ => false

def Happening.isConnect : Happening → Bool
  | .connect _ => true
  | _ => false

/-- Whether a connection is open, and the answers to the next attempts to open one. -/
structure Line where
  isOpen : Bool
  replies : List (Option Refusal)

namespace Line

/-- How a happening changes the line. A connection can be opened only if none is open, a statement needs
an open one, and while an operation lasts none is closed. -/
def step (l : Line) : Happening → Option Line
  | .connect _ => if l.isOpen then none else some ⟨l.replies.head?.join.isNone, l.replies.drop 1⟩
  | .sql _ _ => if l.isOpen then some l else none
  | .disconnect => none
  | _ => some l

def follow (l : Line) : List Happening → Option Line
  | [] => some l
  | h :: hs => (l.step h).bind fun m => m.follow hs

theorem follow_append (l : Line) (hs more : List Happening) :
    l.follow (hs ++ more) = (l.follow hs).bind fun m => m.follow more := by
  induction hs generalizing l with
  | nil => rfl
  | cons h hs ih =>
      rw [List.cons_append, follow, follow, Option.bind_assoc]
      congr 1
      funext m
      exact ih m

theorem follow_idle (l : Line) {hs : List Happening} (h : ∀ x ∈ hs, x.isTraffic = false) :
    l.follow hs = some l := by
  induction hs with
  | nil => rfl
  | cons x hs ih =>
      have hstep : l.step x = some l := by
        have hx := h x List.mem_cons_self
        cases x <;> first | rfl | cases hx
      rw [follow, hstep]
      exact ih fun y hy => h y (List.mem_cons_of_mem _ hy)

end Line

def Client.isJoined (c : Client) : Bool :=
  match c.link with
  | some ⟨false, _⟩ => true
  | _ => false

def World.line (w : World) : Line := ⟨w.client.isJoined, w.server.connectReplies⟩

/-- The number of cells in a row of the answer to a query. -/
def Query.columns : Query → Nat
  | presence _ => 1
  | entry _ => 3
  | all => 3

namespace Server

/-- A server that leaves it to the client to close the connection. -/
def StaysOpen (s : Server) : Prop := ∀ rows, Reply.lastRows rows ∉ s.replies

theorem StaysOpen.not_hangsUp {s : Server} (h : s.StaysOpen) : s.hangsUp = false := by
  unfold hangsUp
  split
  · next rows heq => exact absurd (List.mem_of_mem_head? heq) (h rows)
  · rfl

/-- The server after it has heard some statements with their parameters. -/
def hears (s : Server) (said : List (String × Option (List Json))) : Server :=
  said.foldl (fun s sent => (s.answer sent.1 sent.2).2) s

theorem hears_append (s : Server) (said more : List (String × Option (List Json))) :
    s.hears (said ++ more) = (s.hears said).hears more :=
  List.foldl_append ..

/-- An answer changes the catalog and uses up one of the answers laid down. -/
theorem server_answer (s : Server) (text : String) (parameters : Option (List Json)) :
    (s.answer text parameters).2 =
      { s with catalog := (s.answer text parameters).2.catalog, replies := s.replies.drop 1 } := by
  unfold answer
  dsimp only
  split
  · rfl
  · rfl
  · rfl
  · split <;> rfl
  · split <;> rfl

/-- What is laid down for connections plays no part in the answer to a statement. -/
theorem answer_with (s : Server) (rs : List (Option Refusal)) (text : String)
    (parameters : Option (List Json)) :
    { s with connectReplies := rs }.answer text parameters =
      ((s.answer text parameters).1, { (s.answer text parameters).2 with connectReplies := rs }) := by
  unfold answer
  dsimp only
  split
  · rfl
  · rfl
  · rfl
  · split <;> rfl
  · split <;> rfl

theorem StaysOpen.answer {s : Server} (h : s.StaysOpen) (text : String)
    (parameters : Option (List Json)) : (s.answer text parameters).2.StaysOpen := by
  intro rows hrows
  rw [server_answer] at hrows
  exact h rows (List.mem_of_mem_drop hrows)

theorem hears_with (s : Server) (rs : List (Option Refusal))
    (said : List (String × Option (List Json))) :
    { s with connectReplies := rs }.hears said = { s.hears said with connectReplies := rs } := by
  induction said generalizing s with
  | nil => rfl
  | cons sent said ih =>
      change ({ s with connectReplies := rs }.answer sent.1 sent.2).2.hears said = _
      rw [answer_with]
      exact ih _

/-- Whether an answer is a refusal by the server, or has rows as wide as its query asks. -/
def Fits (text : String) : Except Refusal (List (List Json)) → Prop
  | .ok rows => ∀ q : Query, q.text = text → ∀ row ∈ rows, row.length = q.columns
  | .error (.condition _) => True
  | .error (.disruption _) => False

def FitsAll (s : Server) : List (String × Option (List Json)) → Prop
  | [] => True
  | sent :: said =>
    Fits sent.1 (s.answer sent.1 sent.2).1 ∧ FitsAll (s.answer sent.1 sent.2).2 said

/-- A server that disrupts no connection and answers some statements as it should. -/
structure Reliable (s : Server) (said : List (String × Option (List Json))) : Prop where
  connections : ∀ d, some (.disruption d) ∉ s.connectReplies
  answers : s.FitsAll said

theorem fitsAll_append {s : Server} {said more : List (String × Option (List Json))} :
    s.FitsAll (said ++ more) ↔ s.FitsAll said ∧ (s.hears said).FitsAll more := by
  induction said generalizing s with
  | nil => exact ⟨fun h => ⟨trivial, h⟩, fun h => h.2⟩
  | cons sent said ih =>
      rw [List.cons_append, FitsAll, FitsAll, ih, and_assoc]
      rfl

theorem fitsAll_with {s : Server} (rs : List (Option Refusal))
    {said : List (String × Option (List Json))} :
    { s with connectReplies := rs }.FitsAll said ↔ s.FitsAll said := by
  induction said generalizing s with
  | nil => exact Iff.rfl
  | cons sent said ih => rw [FitsAll, FitsAll, answer_with, ih]

end Server

/-! ### What is refused -/

def Statement.context : Statement → String
  | create _ _ _ => "creating extension"
  | relocate _ _ => "updating extension SCHEMA"
  | reversion _ _ => "updating extension version"
  | drop _ => "deleting extension"

def Query.context : Query → String
  | presence _ => "checking extension"
  | entry _ => "reading extension"
  | all => "listing extensions"

/-- Whether words say what a text is sent for. -/
def Describes (context text : String) : Prop :=
  (∃ s : Statement, s.text = text ∧ s.context = context) ∨ ∃ q : Query, q.text = text ∧ q.context = context

/-- What comes of a connection that is refused. -/
def Refusal.ofConnection (target : String) : Refusal → Failure
  | .condition e => .error (.connection target e)
  | .disruption d => .fault (.disruption d)

/-- What comes of a statement that is refused. -/
def Refusal.ofStatement (context text : String) : Refusal → Failure
  | .condition e => .error (.statement context text e)
  | .disruption d => .fault (.disruption d)

/-- What has been added to the trace while an operation talked to the server, and what that tells of the
server and of the failure of the operation: the first refusal ends the operation, with what comes of it. -/
structure Exchanged (access : Access) (w : World) (o : Option Failure) (u : World)
    (added : List Happening) : Prop where
  trace : u.trace = w.trace ++ added
  server : u.server = { w.server.hears (added.filterMap Happening.statement?) with
    connectReplies := w.server.connectReplies.drop (added.countP Happening.isConnect) }
  connection : ∀ j r, j < added.countP Happening.isConnect → w.server.connectReplies[j]? = some (some r) →
    o = some (r.ofConnection access.target)
  statement : ∀ k sent r, (added.filterMap Happening.statement?)[k]? = some sent →
    ((w.server.hears ((added.filterMap Happening.statement?).take k)).answer sent.1 sent.2).1 = .error r →
    ∃ context, Describes context sent.1 ∧ o = some (r.ofStatement context sent.1)

namespace Exchanged

variable {access : Access} {w u v : World} {o : Option Failure} {added more : List Happening}

theorem statement?_idle (h : ∀ x ∈ added, x.isTraffic = false) :
    added.filterMap Happening.statement? = [] := by
  refine List.filterMap_eq_nil_iff.mpr fun x hx => ?_
  have hkind := h x hx
  cases x <;> first | rfl | cases hkind

theorem isConnect_idle (h : ∀ x ∈ added, x.isTraffic = false) : added.countP Happening.isConnect = 0 := by
  refine List.countP_eq_zero.mpr fun x hx => ?_
  have hkind := h x hx
  cases x <;> first | exact Bool.false_ne_true | cases hkind

/-- Nothing that has to do with the server happens. -/
theorem idle (htrace : u.trace = w.trace ++ added) (hserver : u.server = w.server)
    (hidle : ∀ h ∈ added, h.isTraffic = false) : Exchanged access w o u added := by
  have hsaid := statement?_idle hidle
  have hconnects := isConnect_idle hidle
  refine ⟨htrace, ?_, fun j r hj => ?_, fun k sent r hk => ?_⟩
  · rw [hsaid, hconnects, hserver]
    rfl
  · rw [hconnects] at hj
    exact absurd hj (Nat.not_lt_zero j)
  · rw [hsaid] at hk
    cases hk

theorem trans (h : Exchanged access w none u added) (k : Exchanged access u o v more) :
    Exchanged access w o v (added ++ more) := by
  refine ⟨?_, ?_, fun j r hj hr => ?_, fun i sent r hi hr => ?_⟩
  · rw [k.trace, h.trace, List.append_assoc]
  · rw [k.server, h.server, List.filterMap_append, List.countP_append, Server.hears_append,
      Server.hears_with, ← List.drop_drop]
  · by_cases hfirst : j < added.countP Happening.isConnect
    · cases h.connection j r hfirst hr
    · rw [List.countP_append] at hj
      refine k.connection (j - added.countP Happening.isConnect) r (by omega) ?_
      rw [h.server, List.getElem?_drop, Nat.add_sub_cancel' (Nat.le_of_not_lt hfirst)]
      exact hr
  · rw [List.filterMap_append] at hi hr
    by_cases hfirst : i < (added.filterMap Happening.statement?).length
    · rw [List.getElem?_append_left hfirst] at hi
      rw [List.take_append_of_le_length (Nat.le_of_lt hfirst)] at hr
      obtain ⟨context, -, hnone⟩ := h.statement i sent r hi hr
      cases hnone
    · have hlater := Nat.le_of_not_lt hfirst
      rw [List.getElem?_append_right hlater] at hi
      rw [List.take_append, List.take_of_length_le hlater, Server.hears_append] at hr
      refine k.statement _ sent r hi ?_
      rw [h.server, Server.hears_with, Server.answer_with]
      exact hr

/-- An operation that has met no refusal may still fail. -/
theorem failing (h : Exchanged access w none u added) (o : Option Failure) :
    Exchanged access w o u added := by
  refine ⟨h.trace, h.server, fun j r hj hr => ?_, fun k sent r hk hr => ?_⟩
  · cases h.connection j r hj hr
  · obtain ⟨context, -, hnone⟩ := h.statement k sent r hk hr
    cases hnone

/-- What follows has nothing to do with the server. -/
theorem then_idle (h : Exchanged access w o u added) (htrace : v.trace = u.trace ++ more)
    (hserver : v.server = u.server) (hidle : ∀ h ∈ more, h.isTraffic = false) :
    Exchanged access w o v (added ++ more) := by
  have hsaid : (added ++ more).filterMap Happening.statement? = added.filterMap Happening.statement? := by
    rw [List.filterMap_append, statement?_idle hidle, List.append_nil]
  have hconnects : (added ++ more).countP Happening.isConnect = added.countP Happening.isConnect := by
    rw [List.countP_append, isConnect_idle hidle, Nat.add_zero]
  refine ⟨by rw [htrace, h.trace, List.append_assoc], ?_, ?_, ?_⟩
  · rw [hserver, hsaid, hconnects]
    exact h.server
  · rw [hconnects]
    exact h.connection
  · rw [hsaid]
    exact h.statement

end Exchanged

/-! ### Dialogues -/

/-- A failure for which the operation is not to blame: it is an error, or a fault that the server or the
settings account for. -/
def Failure.IsOwed (access : Access) (s : Server) (said : List (String × Option (List Json))) :
    Failure → Prop
  | .error _ => True
  | .fault (.disruption _) => ¬s.Reliable said
  | .fault (.rowTooShort _ _) => ¬s.Reliable said
  | .fault (.rowTooLong _) => ¬s.Reliable said
  | .fault (.version r) =>
    ∃ text ∈ access.settings.connection.expectedVersion, Version.parse text = .error (.notNumber r)
  | _ => False

/-- What an operation has exchanged with the server while it held a line to it. -/
structure Dialogue (access : Access) (w : World) (o : Option Failure) (u : World)
    (added : List Happening) : Prop extends Exchanged access w o u added where
  line : w.server.StaysOpen → w.line.follow added = some u.line
  stays : w.server.StaysOpen → u.server.StaysOpen
  failure : ∀ f ∈ o, f.IsOwed access w.server (added.filterMap Happening.statement?)

namespace Dialogue

variable {access : Access} {w u v : World} {o : Option Failure} {added more : List Happening}

theorem idle (htrace : u.trace = w.trace ++ added) (hserver : u.server = w.server)
    (hlink : u.client.link = w.client.link) (hidle : ∀ h ∈ added, h.isTraffic = false)
    (hfailure : ∀ f ∈ o, f.IsOwed access w.server []) : Dialogue access w o u added := by
  have hline : u.line = w.line := by simp only [World.line, Client.isJoined, hserver, hlink]
  refine ⟨.idle htrace hserver hidle, fun _ => ?_, fun h => by rwa [hserver], ?_⟩
  · rw [hline]
    exact w.line.follow_idle hidle
  · rw [Exchanged.statement?_idle hidle]
    exact hfailure

theorem refl (access : Access) (w : World) : Dialogue access w none w [] :=
  idle (List.append_nil _).symm rfl rfl (fun _ h => absurd h List.not_mem_nil) fun _ h => by cases h

theorem reliable (h : Dialogue access w none u added)
    {said : List (String × Option (List Json))}
    (hw : w.server.Reliable (added.filterMap Happening.statement? ++ said)) :
    u.server.Reliable said := by
  refine ⟨fun d hd => hw.connections d ?_, ?_⟩
  · rw [h.server] at hd
    exact List.mem_of_mem_drop hd
  · rw [h.server]
    exact (Server.fitsAll_with _).mpr (Server.fitsAll_append.mp hw.answers).2

theorem trans (h : Dialogue access w none u added) (k : Dialogue access u o v more) :
    Dialogue access w o v (added ++ more) := by
  refine ⟨h.toExchanged.trans k.toExchanged, fun hw => ?_, fun hw => k.stays (h.stays hw),
    fun f hf => ?_⟩
  · rw [Line.follow_append, h.line hw]
    exact k.line (h.stays hw)
  · have howed := k.failure f hf
    have hunreliable (hno : ¬u.server.Reliable (more.filterMap Happening.statement?)) :
        ¬w.server.Reliable ((added ++ more).filterMap Happening.statement?) := by
      intro hw
      rw [List.filterMap_append] at hw
      exact hno (h.reliable hw)
    cases f with
    | error e => trivial
    | exit code => exact howed
    | fault f =>
        cases f with
        | disruption d => exact hunreliable howed
        | rowTooShort expected got => exact hunreliable howed
        | rowTooLong expected => exact hunreliable howed
        | version r => exact howed
        | _ => exact howed

/-- What follows has nothing to do with the server. -/
theorem then_idle (h : Dialogue access w o u added) (htrace : v.trace = u.trace ++ more)
    (hserver : v.server = u.server) (hlink : v.client.link = u.client.link)
    (hidle : ∀ h ∈ more, h.isTraffic = false) : Dialogue access w o v (added ++ more) := by
  have hsaid : (added ++ more).filterMap Happening.statement? = added.filterMap Happening.statement? := by
    rw [List.filterMap_append, Exchanged.statement?_idle hidle, List.append_nil]
  have hline : v.line = u.line := by simp only [World.line, Client.isJoined, hserver, hlink]
  refine ⟨h.toExchanged.then_idle htrace hserver hidle, fun hw => ?_, fun hw => ?_, ?_⟩
  · rw [Line.follow_append, h.line hw, hline]
    exact u.line.follow_idle hidle
  · rw [hserver]
    exact h.stays hw
  · rw [hsaid]
    exact h.failure

end Dialogue

/-- A world that differs from another at most in the server, the client and the trace. -/
def World.Besides (w u : World) : Prop :=
  u = { w with server := u.server, client := u.client, trace := u.trace }

theorem World.Besides.trans {w u v : World} (h : w.Besides u) (k : u.Besides v) : w.Besides v := by
  unfold Besides at *
  rw [k, h]

/-- What an operation does that talks to the server and neither takes nor gives back a lock. -/
def Converses (access : Access) (w : World) (o : Option Failure) (u : World) : Prop :=
  ∃ added, Dialogue access w o u added ∧ (∀ h ∈ added, h.isLocking = false) ∧ w.Besides u

namespace Converses
open Act

variable {access : Access} {w u : World} {o : Option Failure}

theorem composes (access : Access) : Composes (Converses access) where
  refl w := ⟨[], .refl access w, fun _ h => absurd h List.not_mem_nil, rfl⟩
  trans := by
    rintro w u v o ⟨added, h, hlocking, hbesides⟩ ⟨more, k, klocking, kbesides⟩
    refine ⟨added ++ more, h.trans k, fun x hx => ?_, hbesides.trans kbesides⟩
    exact (List.mem_append.mp hx).elim (hlocking x) (klocking x)

/-- Nothing happens but that the client learns something, and perhaps the operation fails. -/
theorem of_learnt (hbesides : w.Besides u) (htrace : u.trace = w.trace) (hserver : u.server = w.server)
    (hlink : u.client.link = w.client.link) (hfailure : ∀ f ∈ o, f.IsOwed access w.server []) :
    Converses access w o u := by
  refine ⟨[], .idle ?_ hserver hlink (fun _ h => absurd h List.not_mem_nil) hfailure,
    fun _ h => absurd h List.not_mem_nil, hbesides⟩
  rw [htrace, List.append_nil]

theorem said (access : Access) (w : World) (level : Level) (message : String) :
    Converses access w none (w.said level message) := by
  have hline : ∃ added, (w.said level message).trace = w.trace ++ added ∧
      ∀ h ∈ added, h.isTraffic = false ∧ h.isLocking = false := by
    unfold World.said
    dsimp only
    split
    · exact ⟨_, rfl, by simp [Happening.isTraffic, Happening.isLocking]⟩
    · exact ⟨[], (List.append_nil _).symm, by simp⟩
  obtain ⟨added, htrace, hidle⟩ := hline
  exact ⟨added, .idle htrace rfl rfl (fun h hh => (hidle h hh).1) (fun _ h => by cases h),
    fun h hh => (hidle h hh).2, rfl⟩

theorem say (access : Access) (level : Level) (message : String) :
    Leads (Converses access) (say level message) := by
  intro w
  rw [say_apply]
  exact .said access w level message

theorem checked {α : Type} (access : Access) (x : Except Error α) :
    Leads (Converses access) (checked x) := by
  intro w
  cases x with
  | ok a => exact (composes access).refl w
  | error e => exact .of_learnt rfl rfl rfl rfl fun f hf => by cases hf; trivial

end Converses

/-! ### Connections and statements -/

/-- The world in which a client has tried to open a connection. -/
def World.dialled (w : World) (access : Access) : World :=
  { w.said .debug ("Connecting to " ++ access.target) with
    trace := (w.said .debug ("Connecting to " ++ access.target)).trace
      ++ [.connect (Client.connectParameters access)]
    server := { w.server with connectReplies := w.server.connectReplies.drop 1 } }

namespace Client
open Act

variable {access : Access} {w : World}

theorem connection_joined (access : Access) (h : w.client.isJoined = true) :
    ∃ version, connection access w = (.ok ⟨false, version⟩, w) := by
  obtain ⟨_, _, _, _, _, _, _, _, ⟨link, _⟩, _, _, _⟩ := w
  rcases link with _ | ⟨_ | _, version⟩
  · cases h
  · exact ⟨version, rfl⟩
  · cases h

theorem connection_refused (access : Access) {r : Refusal} (hjoined : w.client.isJoined = false)
    (hr : w.server.connectReplies.head?.join = some r) :
    connection access w = (.error (r.ofConnection access.target), w.dialled access) := by
  obtain ⟨_, _, _, _, _, _, _, ⟨_, _, _, replies⟩, ⟨link, _⟩, _, _, _⟩ := w
  rcases replies with _ | ⟨_ | _, replies⟩ <;> cases hr
  rcases link with _ | ⟨_ | _, version⟩
  case some.false => cases hjoined
  all_goals
    rw [connection, get_bind]
    dsimp only
    rw [bind_ok (say_apply ..), bind_ok (happen_apply ..), get_bind]
    cases r <;> rfl

theorem connection_opened (access : Access) (hjoined : w.client.isJoined = false)
    (hr : w.server.connectReplies.head?.join = none) :
    connection access w = (.ok ⟨false, w.server.version⟩, { w.dialled access with
      client := { w.client with link := some ⟨false, w.server.version⟩ } }) := by
  obtain ⟨_, _, _, _, _, _, _, ⟨_, _, _, replies⟩, ⟨link, _⟩, _, _, _⟩ := w
  have hreply : replies.head? = none ∨ replies.head? = some none := by
    rcases replies with _ | ⟨_ | _, replies⟩
    · exact .inl rfl
    · exact .inr rfl
    · cases hr
  rcases link with _ | ⟨_ | _, version⟩
  case some.false => cases hjoined
  all_goals
    rw [connection, get_bind]
    dsimp only
    rw [bind_ok (say_apply ..), bind_ok (happen_apply ..), get_bind]
    rcases hreply with hreply | hreply <;> dsimp only [World.said] <;> rw [hreply] <;> rfl

end Client

/-- An attempt to open a connection is told to the trace and uses up the answer laid down for it. -/
theorem Dialogue.connect {access : Access} {w u : World} {o : Option Failure}
    {parameters : List (String × Json)} (htrace : u.trace = w.trace ++ [.connect parameters])
    (hserver : u.server = { w.server with connectReplies := w.server.connectReplies.drop 1 })
    (hjoined : w.client.isJoined = false)
    (hopen : u.client.isJoined = w.server.connectReplies.head?.join.isNone)
    (ho : o = w.server.connectReplies.head?.join.map (·.ofConnection access.target)) :
    Dialogue access w o u [.connect parameters] := by
  have hline (_ : w.server.StaysOpen) : w.line.follow [.connect parameters] = some u.line := by
    have hstep : w.line.step (.connect parameters) = some u.line := by
      simp only [Line.step, World.line, hjoined, hopen, hserver, Bool.false_eq_true, if_false]
    rw [Line.follow, hstep]
    rfl
  refine ⟨⟨htrace, hserver, fun j r hj hr => ?_, fun k sent r hk => (by cases hk)⟩, hline,
    fun hw => by rw [hserver]; exact hw, fun f hf => ?_⟩
  · obtain rfl : j = 0 := Nat.lt_one_iff.mp hj
    rw [← List.head?_eq_getElem?] at hr
    rw [ho, hr]
    rfl
  · rw [ho] at hf
    obtain ⟨r, hr, rfl⟩ := Option.map_eq_some_iff.mp hf
    have hmem : some r ∈ w.server.connectReplies :=
      List.mem_of_mem_head? (Option.join_eq_some_iff.mp hr)
    cases r with
    | condition e => trivial
    | disruption d => exact fun hw => hw.connections d hmem

namespace Client
open Act

theorem connection_converses (access : Access) : Leads (Converses access) (connection access) := by
  intro w
  cases hjoined : w.client.isJoined with
  | true =>
      obtain ⟨version, hconnection⟩ := connection_joined access hjoined
      rw [hconnection]
      exact (Converses.composes access).refl w
  | false =>
      -- the line that tells of the attempt comes before it
      refine (Converses.composes access).trans (.said access w .debug ("Connecting to " ++ access.target)) ?_
      cases hreply : w.server.connectReplies.head?.join with
      | none =>
          rw [connection_opened access hjoined hreply]
          refine ⟨_, .connect rfl rfl hjoined ?_ ?_, by simp [Happening.isLocking], rfl⟩
          · exact (congrArg Option.isNone hreply).symm
          · exact (congrArg (Option.map _) hreply).symm
      | some r =>
          rw [connection_refused access hjoined hreply]
          refine ⟨_, .connect rfl rfl hjoined ?_ ?_, by simp [Happening.isLocking], rfl⟩
          · exact hjoined.trans (congrArg Option.isNone hreply).symm
          · exact (congrArg (Option.map _) hreply).symm

theorem serverVersion_converses (access : Access) : Leads (Converses access) (serverVersion access) := by
  have hcomposes := Converses.composes access
  have hlearn (n : Int) : Leads (Converses access) (do
      modify fun w => { w with client := { w.client with knownVersion := some n } }
      return n) :=
    fun w => .of_learnt rfl rfl rfl rfl fun f hf => by cases hf
  refine .get_bind fun w => ?_
  split
  · exact hcomposes.pure _
  · split
    · next text hexpected =>
        have hmem : text ∈ access.settings.connection.expectedVersion :=
          (Option.filter_eq_some_iff.mp hexpected).1
        split
        · exact hcomposes.bind (hcomposes.pure _) hlearn
        · exact fun w => .of_learnt rfl rfl rfl rfl fun f hf => by cases hf; trivial
        · next r hparse =>
            refine fun w => .of_learnt rfl rfl rfl rfl fun f hf => ?_
            cases hf
            exact ⟨text, hmem, hparse⟩
    · refine hcomposes.bind (connection_converses access) fun link => ?_
      exact hcomposes.bind (hcomposes.pure _) hlearn

theorem requireExtensions_converses (access : Access) (resource : String) :
    Leads (Converses access) (requireExtensions access resource) := by
  refine (Converses.composes access).bind (serverVersion_converses access) fun n => ?_
  split
  · exact fun w => .of_learnt rfl rfl rfl rfl fun f hf => by cases hf; trivial
  · exact (Converses.composes access).pure ()

theorem connection_ok {access : Access} {w u : World} {link : Link}
    (h : connection access w = (.ok link, u)) :
    u.client.isJoined = true ∧ ∃ rs, u.server = { w.server with connectReplies := rs } := by
  cases hjoined : w.client.isJoined with
  | true =>
      obtain ⟨version, hconnection⟩ := connection_joined access hjoined
      obtain ⟨-, rfl⟩ := Prod.mk.inj (h.symm.trans hconnection)
      exact ⟨hjoined, _, rfl⟩
  | false =>
      cases hreply : w.server.connectReplies.head?.join with
      | none =>
          obtain ⟨-, rfl⟩ := Prod.mk.inj (h.symm.trans (connection_opened access hjoined hreply))
          exact ⟨rfl, _, rfl⟩
      | some r => cases h.symm.trans (connection_refused access hjoined hreply)

end Client

/-- A statement is told to the trace and heard by the server. -/
theorem Dialogue.sent {access : Access} {w u : World} {o : Option Failure} {context text : String}
    {parameters : Option (List Json)} (hcontext : Describes context text)
    (htrace : u.trace = w.trace ++ [.sql text parameters])
    (hserver : u.server = (w.server.answer text parameters).2)
    (hclient : u.client = if w.server.hangsUp then w.client.cutOff else w.client)
    (hjoined : w.client.isJoined = true)
    (ho : o = Act.failure? ((w.server.answer text parameters).1.mapError (·.ofStatement context text))) :
    Dialogue access w o u [.sql text parameters] := by
  have hreplies : u.server.connectReplies = w.server.connectReplies := by
    rw [hserver, Server.server_answer]
  have hline (hw : w.server.StaysOpen) : w.line.follow [.sql text parameters] = some u.line := by
    rw [hw.not_hangsUp, if_neg Bool.false_ne_true] at hclient
    have hstep : w.line.step (.sql text parameters) = some u.line := by
      simp only [Line.step, World.line, hjoined, hclient, hreplies, if_true]
    rw [Line.follow, hstep]
    rfl
  refine ⟨⟨htrace, ?_, fun j r hj => absurd hj (Nat.not_lt_zero j), fun k sent r hk hr => ?_⟩, hline,
    fun hw => by rw [hserver]; exact hw.answer text parameters, fun f hf => ?_⟩
  · change u.server = { (w.server.answer text parameters).2 with connectReplies := w.server.connectReplies }
    rw [← hserver, ← hreplies]
  · obtain ⟨rfl, rfl⟩ : k = 0 ∧ sent = (text, parameters) := by
      cases k <;> cases hk
      exact ⟨rfl, rfl⟩
    have hanswer : (w.server.answer text parameters).1 = .error r := hr
    rw [hanswer] at ho
    exact ⟨context, hcontext, ho⟩
  · rcases hanswer : (w.server.answer text parameters).1 with (e | d) | rows <;> rw [hanswer] at ho <;>
      cases ho.symm.trans hf
    · trivial
    · intro hw
      have hfits : Server.Fits text (w.server.answer text parameters).1 := hw.answers.1
      rw [hanswer] at hfits
      exact hfits

namespace Client
open Act

/-- The result of a statement for which there is a connection is the answer to it. -/
theorem send_connected (access : Access) (context text : String) (parameters : Option (List Json))
    {w v : World} {link : Link}
    (h : connection access (w.said .debug ("SQL: " ++ text)) = (.ok link, v)) :
    ∃ u, send access context text parameters w =
        ((v.server.answer text parameters).1.mapError (·.ofStatement context text), u) ∧
      u.trace = v.trace ++ [.sql text parameters] ∧ u.server = (v.server.answer text parameters).2 ∧
      u.client = (if v.server.hangsUp then v.client.cutOff else v.client) ∧ v.Besides u := by
  rw [send, bind_ok (say_apply ..), bind_ok h, bind_ok (happen_apply ..), get_bind]
  dsimp only
  rcases v.server.answer text parameters with ⟨(e | d) | rows, s⟩ <;>
    exact ⟨_, rfl, rfl, rfl, rfl, rfl⟩

theorem send_converses (access : Access) {context text : String} (hcontext : Describes context text)
    (parameters : Option (List Json)) :
    Leads (Converses access) (send access context text parameters) := by
  intro w
  have hcomposes := Converses.composes access
  refine hcomposes.trans (.said access w .debug ("SQL: " ++ text)) ?_
  have hconnection := connection_converses access (w.said .debug ("SQL: " ++ text))
  rcases h : connection access (w.said .debug ("SQL: " ++ text)) with ⟨f | link, v⟩ <;>
    rw [h] at hconnection
  · rw [send, bind_ok (say_apply ..), bind_error h]
    exact hconnection
  · obtain ⟨u, hsend, htrace, hserver, hclient, hbesides⟩ :=
      send_connected access context text parameters h
    refine hcomposes.trans hconnection ?_
    rw [hsend]
    exact ⟨_, .sent hcontext htrace hserver hclient (connection_ok h).1 rfl,
      by simp [Happening.isLocking], hbesides⟩

/-- The result of a statement is the answer of the server, and the statement has been sent. -/
theorem send_result (access : Access) (context text : String) (parameters : Option (List Json))
    {w u : World} {rows : List (List Json)}
    (h : send access context text parameters w = (.ok rows, u)) :
    (w.server.answer text parameters).1 = .ok rows ∧
      u.statements = w.statements ++ [(text, parameters)] := by
  have hsilent := (connection_silent access).statements (w.said .debug ("SQL: " ++ text))
  rcases hconnection : connection access (w.said .debug ("SQL: " ++ text)) with ⟨f | link, v⟩
  · rw [send, bind_ok (say_apply ..), bind_error hconnection] at h
    cases h
  · obtain ⟨u', hsend, htrace, -, -, -⟩ := send_connected access context text parameters hconnection
    obtain ⟨hrows, rfl⟩ := Prod.mk.inj (h.symm.trans hsend)
    obtain ⟨-, rs, hserver⟩ := connection_ok hconnection
    rw [hserver, Server.answer_with] at hrows
    constructor
    · rcases hanswer : (w.server.answer text parameters).1 with r | rows' <;>
        (change Except.ok rows = Except.mapError _ (w.server.answer text parameters).1 at hrows
         rw [hanswer] at hrows
         cases hrows)
      rfl
    · rw [hconnection] at hsilent
      rw [World.statements_append htrace, hsilent, (Spoken.said w .debug _).statements, List.append_nil]
      rfl

end Client

/-! ### Requests and calls -/

theorem Observed.ofRow_error {row : List Json} {f : Fault} (h : ofRow row = .error f) :
    row.length ≠ 3 ∧ ((∃ m n, f = .rowTooShort m n) ∨ ∃ m, f = .rowTooLong m) := by
  rcases row with _ | ⟨a, _ | ⟨b, _ | ⟨c, _ | ⟨d, row⟩⟩⟩⟩ <;> cases h
  · exact ⟨by simp, .inl ⟨_, _, rfl⟩⟩
  · exact ⟨by simp, .inl ⟨_, _, rfl⟩⟩
  · exact ⟨by simp, .inl ⟨_, _, rfl⟩⟩
  · exact ⟨by simp, .inr ⟨3, if_neg (by simp)⟩⟩

theorem Failure.IsOwed.of_row {access : Access} {s : Server} {said : List (String × Option (List Json))}
    {row : List Json} {f : Fault} (h : Observed.ofRow row = .error f) (hs : ¬s.Reliable said) :
    (Failure.fault f).IsOwed access s said := by
  obtain ⟨-, ⟨m, n, rfl⟩ | ⟨m, rfl⟩⟩ := Observed.ofRow_error h
  · exact hs
  · exact hs

namespace Client
open Act

variable {access : Access} {α : Type}

/-- A statement whose rows are taken apart fails for rows that are not as wide as the statement asks. -/
theorem send_interpreted {context text : String} (hcontext : Describes context text)
    (parameters : Option (List Json)) {interpret : List (List Json) → Except Failure α}
    (h : ∀ rows f, interpret rows = .error f → ∃ row ∈ rows, ∃ fault, Observed.ofRow row = .error fault ∧
      f = .fault fault ∧ ∃ q : Query, q.text = text ∧ q.columns = 3) :
    Leads (Converses access) (do liftM (interpret (← send access context text parameters))) := by
  intro w
  have hsent := send_converses access hcontext parameters w
  rcases hsend : send access context text parameters w with ⟨f | rows, u⟩ <;> rw [hsend] at hsent
  · rw [bind_error hsend]
    exact hsent
  · rw [bind_ok hsend, liftM_apply]
    obtain ⟨added, hdialogue, hlocking, hbesides⟩ := hsent
    refine ⟨added, ⟨hdialogue.toExchanged.failing _, hdialogue.line, hdialogue.stays, fun f hf => ?_⟩,
      hlocking, hbesides⟩
    obtain ⟨hanswer, hstatements⟩ := send_result access context text parameters hsend
    have hadded : added.filterMap Happening.statement? = [(text, parameters)] := by
      rw [World.statements_append hdialogue.trace] at hstatements
      exact List.append_cancel_left hstatements
    cases hinterpret : interpret rows with
    | ok x =>
        rw [hinterpret] at hf
        cases hf
    | error e =>
        rw [hinterpret] at hf
        cases hf
        obtain ⟨row, hrow, fault, hfault, rfl, q, hq, hcolumns⟩ := h rows f hinterpret
        refine .of_row hfault fun hw => (Observed.ofRow_error hfault).1 ?_
        rw [hadded] at hw
        have hfits : Server.Fits text (w.server.answer text parameters).1 := hw.answers.1
        rw [hanswer] at hfits
        rw [hfits q hq row hrow, hcolumns]

end Client

namespace Gateway
open Act Client

theorem list_converses (access : Access) : Leads (Converses access) (list access) := by
  have hlist : list access = (do
      requireExtensions access resourceName
      let rows ← send access "listing extensions" Query.all.text none
      liftM ((rows.mapM Observed.ofRow).mapError Failure.fault)) := by
    unfold list fetch
    refine congrArg (requireExtensions access _ >>= ·) (funext fun _ => ?_)
    refine congrArg (send access _ _ _ >>= ·) (funext fun rows => ?_)
    cases rows.mapM Observed.ofRow <;> rfl
  rw [hlist]
  refine (Converses.composes access).bind (requireExtensions_converses access _) fun _ => ?_
  refine send_interpreted (.inr ⟨.all, rfl, rfl⟩) _ fun rows f hf => ?_
  induction rows with
  | nil => cases hf
  | cons row rows ih =>
      rw [List.mapM_cons] at hf
      cases hrow : Observed.ofRow row with
      | error fault =>
          rw [hrow] at hf
          cases hf
          exact ⟨row, List.mem_cons_self, fault, hrow, rfl, .all, rfl, rfl⟩
      | ok o =>
          have hrest : (rows.mapM Observed.ofRow).mapError Failure.fault = .error f := by
            rw [hrow] at hf
            change ((rows.mapM Observed.ofRow).bind _).mapError _ = _ at hf
            cases hrows : rows.mapM Observed.ofRow with
            | error fault => rwa [hrows] at hf
            | ok os => rw [hrows] at hf; cases hf
          obtain ⟨row, hmem, hfound⟩ := ih hrest
          exact ⟨row, List.mem_cons_of_mem _ hmem, hfound⟩

end Gateway

namespace Lifecycle
open Act Client

namespace Request

theorem prelude_converses (access : Access) (q : Request) : Leads (Converses access) (q.prelude access) := by
  have hcomposes := Converses.composes access
  cases q with
  | create d => exact hcomposes.bind (requireExtensions_converses access _) fun _ => .say access _ _
  | find name => exact hcomposes.pure ()
  | has name => exact hcomposes.pure ()
  | relocate name schema => exact hcomposes.bind (.checked access _) fun _ => .say access _ _
  | reversion name version => exact .say access _ _
  | drop name => exact .say access _ _

theorem describes (q : Request) : Describes q.context q.text := by
  cases q with
  | find name => exact .inr ⟨.entry name, rfl, rfl⟩
  | has name => exact .inr ⟨.presence name, rfl, rfl⟩
  | create d => exact .inl ⟨.create d.name d.schema d.version, rfl, rfl⟩
  | relocate name schema => exact .inl ⟨.relocate name schema, rfl, rfl⟩
  | reversion name version => exact .inl ⟨.reversion name version, rfl, rfl⟩
  | drop name => exact .inl ⟨.drop name, rfl, rfl⟩

theorem interpret_error {q : Request} {rows : List (List Json)} {f : Failure}
    (h : q.interpret rows = .error f) :
    ∃ row ∈ rows, ∃ fault, Observed.ofRow row = .error fault ∧ f = .fault fault ∧
      ∃ query : Query, query.text = q.text ∧ query.columns = 3 := by
  cases q with
  | find name =>
      rw [interpret] at h
      cases hrow : rows.head? with
      | none => simp [hrow] at h
      | some row =>
          simp only [hrow] at h
          cases ho : Observed.ofRow row with
          | ok o => simp [ho] at h
          | error fault =>
              simp only [ho] at h
              cases h
              exact ⟨row, List.mem_of_mem_head? hrow, fault, ho, rfl, .entry name, rfl, rfl⟩
  | _ => cases h

theorem perform_converses (access : Access) (q : Request) : Leads (Converses access) (q.perform access) := by
  rw [perform_eq]
  refine (Converses.composes access).bind (q.prelude_converses access) fun _ => ?_
  exact send_interpreted q.describes _ fun rows f => interpret_error

end Request

theorem performAll_converses (access : Access) (qs : List Request) (reply : Reply) :
    Leads (Converses access) (performAll access qs reply) := by
  induction qs generalizing reply with
  | nil => exact (Converses.composes access).pure reply
  | cons q qs ih => exact (Converses.composes access).bind (q.perform_converses access) ih

namespace Call

theorem prepare_converses (access : Access) (call : Call) :
    Leads (Converses access) (call.prepare access) :=
  (Converses.composes access).bind (requireExtensions_converses access _) fun _ => .checked access _

theorem settle_converses (access : Access) (call : Call) : Leads (Converses access) call.settle := by
  have hcomposes := Converses.composes access
  cases call with
  | update identity previous desired => exact hcomposes.bind (.say access _ _) fun _ => hcomposes.pure _
  | _ => exact hcomposes.pure _

theorem noted_converses (access : Access) (identity : String) (found : Option Observed) :
    Leads (Converses access) (noted identity found) := by
  have hcomposes := Converses.composes access
  cases found with
  | none => exact hcomposes.bind (.say access _ _) fun _ => hcomposes.pure _
  | some o => exact hcomposes.pure _

theorem conclude_converses (access : Access) (call : Call) (reply : Reply) :
    Leads (Converses access) (call.conclude reply) := by
  have hcomposes := Converses.composes access
  have hnoted (identity : String) (g : Option Observed → Answer) :
      Leads (Converses access) (do return g (← noted identity reply.found)) :=
    hcomposes.bind (noted_converses access identity reply.found) fun _ => hcomposes.pure _
  cases call with
  | create desired => exact hnoted desired.name .observed
  | read identity => exact hnoted identity .observed
  | adopt name => exact hnoted name .observed
  | update identity previous desired => exact hnoted identity fun o => .updated (.readBack o)
  | installed identity => exact hcomposes.pure _
  | delete identity => exact hcomposes.pure _

theorem body_converses (access : Access) (call : Call) (qs : List Request) :
    Leads (Converses access) (call.body access qs) :=
  (Converses.composes access).bind (performAll_converses access qs .nothing) (conclude_converses access call)

end Call

end Lifecycle

end CatalogSteward
