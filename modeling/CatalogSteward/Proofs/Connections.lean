import CatalogSteward.Proofs.CommandLine.Sessions

/-!
# How long a connection lives

A client may be put to its uses in any order. Between two of them the server may have closed the
connection, and it may have become any other server, which accepts connections or refuses them. A client
opens a connection when a use needs one and none is open, so the server never keeps more than one for it.
The version of the server outlives the connections: once it is known it is never asked for again.

The connections that are open are counted apart from what the client thinks of them, by what happens
between it and the server.
-/

namespace CatalogSteward

def Happening.isDisconnect : Happening → Bool
  | .disconnect => true
  | _ => false

/-- By how much a happening changes the number of connections that a server keeps open, until the answers
that were laid down first are used up. -/
def Server.gain (s : Server) : Happening → Int
  | .connect _ => if s.connectReplies.head?.join.isNone then 1 else 0
  | .disconnect => -1
  | .sql _ _ => if s.hangsUp then -1 else 0
  | _ => 0

/-- What has happened in a world since an earlier one. -/
def World.since (u w : World) : List Happening := u.trace.drop w.trace.length

theorem World.since_eq {w u : World} {added : List Happening} (h : u.trace = w.trace ++ added) :
    u.since w = added := by
  rw [since, h, List.drop_left]

/-- What has become of connections from a world to a later one. -/
structure Booked (s : Server) (w u : World) (connects disconnects : Nat) (gain : Int) : Prop where
  trace : u.trace = w.trace ++ u.since w
  connects : (u.since w).countP Happening.isConnect = connects
  disconnects : (u.since w).countP Happening.isDisconnect = disconnects
  gain : ((u.since w).map s.gain).sum = gain

namespace Booked

variable {s : Server} {w u v : World} {c d c' d' : Nat} {g g' : Int}

theorem of_added {added : List Happening} (h : u.trace = w.trace ++ added) :
    Booked s w u (added.countP Happening.isConnect) (added.countP Happening.isDisconnect)
      (added.map s.gain).sum := by
  have hsince := World.since_eq h
  exact ⟨hsince ▸ h, hsince ▸ rfl, hsince ▸ rfl, hsince ▸ rfl⟩

theorem quiet (h : u.trace = w.trace) : Booked s w u 0 0 0 :=
  have hnone : u.trace = w.trace ++ [] := by rw [h, List.append_nil]
  of_added hnone

theorem trans (h : Booked s w u c d g) (k : Booked s u v c' d' g') :
    Booked s w v (c + c') (d + d') (g + g') := by
  have htrace : v.trace = w.trace ++ (u.since w ++ v.since u) := by
    rw [← List.append_assoc, ← h.trace]
    exact k.trace
  have hbooked := of_added (s := s) htrace
  rwa [List.countP_append, List.countP_append, List.map_append, List.sum_append, h.connects,
    h.disconnects, h.gain, k.connects, k.disconnects, k.gain] at hbooked

/-- One more thing has happened. -/
theorem happened {h : Happening} (hw : u.trace = w.trace ++ [h]) :
    Booked s w u (if h.isConnect then 1 else 0) (if h.isDisconnect then 1 else 0) (s.gain h) := by
  have hbooked := of_added (s := s) hw
  rwa [List.countP_singleton, List.countP_singleton, List.map_singleton, List.sum_singleton] at hbooked

/-- What is said beforehand does not count. -/
theorem of_said {level : Level} {message : String} (h : Booked s (w.said level message) u c d g) :
    Booked s w u c d g := by
  have hsaid : Booked s w (w.said level message) 0 0 0 := by
    cases hshows : w.console.shows level with
    | true => exact happened (h := .line level.toErrors (level.tag ++ " " ++ message)) (if_pos hshows)
    | false => exact quiet (if_neg (hshows ▸ Bool.false_ne_true))
  have hbooked := hsaid.trans h
  rwa [Nat.zero_add, Nat.zero_add, Int.zero_add] at hbooked

theorem dialled (s : Server) (access : Access)
    (h : u.trace = (w.dialled access).trace) :
    Booked s w u 1 0 (if s.connectReplies.head?.join.isNone then 1 else 0) :=
  .of_said (.happened h)

end Booked

namespace Client
open Act

/-- The connections that a client takes to be open. -/
def joins (c : Client) : Int := if c.isJoined then 1 else 0

theorem cutOff_isJoined (c : Client) : c.cutOff.isJoined = false := by
  obtain ⟨_ | _, _⟩ := c <;> rfl

/-- What becomes of connections where one is needed, or where it is given back. -/
structure Served (access : Access) (needs ends : Bool) (w : World) (o : Option Failure) (u : World) :
    Prop where
  booked : Booked w.server w u (if needs && !w.client.isJoined then 1 else 0)
    (if ends && w.client.isJoined then 1 else 0) (u.client.joins - w.client.joins)
  refused : (needs && !w.client.isJoined) = true → ∀ r, w.server.connectReplies.head?.join = some r →
    o = some (r.ofConnection access.target) ∧ u.client = w.client

variable {access : Access} {w u : World}

/-- Nothing becomes of connections where none is needed and none is given back. -/
theorem Served.idle {o : Option Failure} (htrace : u.trace = w.trace)
    (hlink : u.client.link = w.client.link) : Served access false false w o u := by
  refine ⟨?_, fun h => absurd h Bool.false_ne_true⟩
  have hjoins : u.client.joins = w.client.joins := by rw [joins, joins, isJoined, isJoined, hlink]
  rw [hjoins, sub_self]
  exact .quiet htrace

theorem connection_served (access : Access) (w : World) :
    Served access true false w (failure? (connection access w).1) (connection access w).2 := by
  cases hjoined : w.client.isJoined with
  | true =>
      obtain ⟨version, hconnection⟩ := connection_joined access hjoined
      rw [hconnection]
      refine ⟨?_, fun h => ?_⟩
      · rw [hjoined, sub_self]
        exact .quiet rfl
      · rw [hjoined] at h
        cases h
  | false =>
      cases hreply : w.server.connectReplies.head?.join with
      | some r =>
          rw [connection_refused access hjoined hreply]
          refine ⟨?_, fun _ r' hr => ?_⟩
          · have hbooked := Booked.dialled (w := w) w.server access rfl
            rw [hreply] at hbooked
            rw [hjoined, show (w.dialled access).client = w.client from rfl, sub_self]
            exact hbooked
          · obtain rfl : r = r' := Option.some.inj (hreply.symm.trans hr)
            exact ⟨rfl, rfl⟩
      | none =>
          rw [connection_opened access hjoined hreply]
          refine ⟨?_, fun _ r hr => by cases hreply.symm.trans hr⟩
          have hbooked := Booked.dialled (w := w) (u := { w.dialled access with
            client := { w.client with link := some ⟨false, w.server.version⟩ } }) w.server access rfl
          rw [hreply] at hbooked
          rw [joins, joins, hjoined]
          exact hbooked

/-- There is no connection only if the server refuses one. -/
theorem connection_error {f : Failure} (h : connection access w = (.error f, u)) :
    ∃ r, w.server.connectReplies.head?.join = some r ∧ f = r.ofConnection access.target := by
  cases hjoined : w.client.isJoined with
  | true =>
      obtain ⟨version, hconnection⟩ := connection_joined access hjoined
      cases h.symm.trans hconnection
  | false =>
      cases hreply : w.server.connectReplies.head?.join with
      | none => cases h.symm.trans (connection_opened access hjoined hreply)
      | some r =>
          cases h.symm.trans (connection_refused access hjoined hreply)
          exact ⟨r, rfl, rfl⟩

/-- A connection that is asked for leaves alone what is known of the version. -/
theorem connection_knownVersion (access : Access) (w : World) :
    (connection access w).2.client.knownVersion = w.client.knownVersion := by
  cases hjoined : w.client.isJoined with
  | true =>
      obtain ⟨version, hconnection⟩ := connection_joined access hjoined
      rw [hconnection]
  | false =>
      cases hreply : w.server.connectReplies.head?.join with
      | some r =>
          rw [connection_refused access hjoined hreply]
          rfl
      | none => rw [connection_opened access hjoined hreply]

theorem send_served (access : Access) (context text : String) (parameters : Option (List Json))
    (w : World) :
    Served access true false w (failure? (send access context text parameters w).1)
      (send access context text parameters w).2 := by
  have hserved := connection_served access (w.said .debug ("SQL: " ++ text))
  rcases h : connection access (w.said .debug ("SQL: " ++ text)) with ⟨f | link, v⟩ <;>
    rw [h] at hserved
  · rw [send, bind_ok (say_apply ..), bind_error h]
    exact ⟨.of_said hserved.booked, hserved.refused⟩
  · obtain ⟨u, hsend, htrace, -, hclient, -⟩ := send_connected access context text parameters h
    obtain ⟨hjoined, rs, hserver⟩ := connection_ok h
    rw [hsend]
    refine ⟨?_, fun hneeds r hr => by cases (hserved.refused hneeds r hr).1⟩
    have hsent : Booked w.server v u 0 0 (u.client.joins - v.client.joins) := by
      have hbooked := Booked.happened (s := w.server) htrace
      have hhangs : v.server.hangsUp = w.server.hangsUp := by
        rw [hserver]
        rfl
      have hgain : w.server.gain (.sql text parameters) = u.client.joins - v.client.joins := by
        rw [hclient, hhangs, joins, joins, hjoined]
        unfold Server.gain
        cases w.server.hangsUp with
        | true => rw [if_pos rfl, if_pos rfl, cutOff_isJoined]; rfl
        | false => rw [if_neg Bool.false_ne_true, if_neg Bool.false_ne_true, hjoined]; rfl
      rwa [hgain] at hbooked
    have hbooked := (Booked.of_said hserved.booked).trans hsent
    rwa [Nat.add_zero, Nat.add_zero, add_comm, sub_add_sub_cancel] at hbooked

theorem send_knownVersion (access : Access) (context text : String) (parameters : Option (List Json))
    (w : World) :
    (send access context text parameters w).2.client.knownVersion = w.client.knownVersion := by
  have hknown := connection_knownVersion access (w.said .debug ("SQL: " ++ text))
  rcases h : connection access (w.said .debug ("SQL: " ++ text)) with ⟨f | link, v⟩ <;> rw [h] at hknown
  · rw [send, bind_ok (say_apply ..), bind_error h]
    exact hknown
  · obtain ⟨u, hsend, -, -, hclient, -⟩ := send_connected access context text parameters h
    rw [hsend, hclient]
    split
    · exact hknown
    · exact hknown

/-- Whether a client has to connect if it is asked for the version of the server. -/
def mustAsk (access : Access) (c : Client) : Bool :=
  c.knownVersion.isNone && (access.settings.connection.expectedVersion.filter (· ≠ "")).isNone

theorem serverVersion_served (access : Access) (w : World) :
    Served access (w.client.mustAsk access) false w (failure? (serverVersion access w).1)
      (serverVersion access w).2 := by
  cases hknown : w.client.knownVersion with
  | some n =>
      rw [serverVersion_known access hknown, mustAsk, hknown]
      exact .idle rfl rfl
  | none =>
      cases hexpected : access.settings.connection.expectedVersion.filter (· ≠ "") with
      | some text =>
          obtain ⟨hgiven, hne⟩ := Option.filter_eq_some_iff.mp hexpected
          rw [mustAsk, hexpected, Option.isNone_some, Bool.and_false,
            serverVersion_expected hgiven (of_decide_eq_true hne) hknown]
          rcases Version.parse text with (_ | _) | n
          · exact .idle rfl rfl
          · exact .idle rfl rfl
          · exact .idle rfl rfl
      | none =>
          have hserved := connection_served access w
          rw [mustAsk, hexpected, hknown, serverVersion_unexpected hexpected hknown]
          rcases h : connection access w with ⟨f | link, u⟩ <;> rw [h] at hserved
          · exact hserved
          · exact ⟨⟨hserved.booked.trace, hserved.booked.connects, hserved.booked.disconnects,
              hserved.booked.gain⟩, fun hneeds r hr => by cases (hserved.refused hneeds r hr).1⟩

theorem serverVersion_knownVersion (access : Access) {w : World} {n : Int}
    (h : w.client.knownVersion = some n) :
    (serverVersion access w).2.client.knownVersion = some n := by
  rw [serverVersion_known access h]
  exact h

theorem close_served (access : Access) (w : World) :
    Served access false true w (failure? (close w).1) (close w).2 := by
  refine ⟨?_, fun h => absurd h Bool.false_ne_true⟩
  rw [CommandLine.close_apply]
  have hopen : (CommandLine.closed w).client.joins = 0 := rfl
  cases hjoined : w.client.isJoined with
  | true =>
      rw [hopen, joins, hjoined]
      exact .happened (h := .disconnect) (if_pos hjoined)
  | false =>
      rw [hopen, joins, hjoined]
      exact .quiet (if_neg (hjoined ▸ Bool.false_ne_true))

/-! ### Uses -/

/-- What a client can be asked for. -/
inductive Use where
  | connection
  | execute (context text : String) (parameters : Option (List Json))
  | fetchOne (context text : String) (parameters : Option (List Json))
  | fetchAll (context text : String) (parameters : Option (List Json))
  | serverVersion
  | close

/-- What a client gives back. -/
inductive Gain where
  | link (link : Link)
  | done
  | row (row : Option (List Json))
  | rows (rows : List (List Json))
  | version (n : Int)

namespace Use

def run (access : Access) : Use → Act Gain
  | connection => .link <$> Client.connection access
  | execute context text parameters => (fun _ => .done) <$> send access context text parameters
  | fetchOne context text parameters => (fun rows => .row rows.head?) <$> send access context text parameters
  | fetchAll context text parameters => .rows <$> send access context text parameters
  | serverVersion => .version <$> Client.serverVersion access
  | close => (fun _ => .done) <$> Client.close

/-- Whether a use cannot do without a connection. -/
def needsConnection (access : Access) (c : Client) : Use → Bool
  | serverVersion => c.mustAsk access
  | close => false
  | _ => true

def isClose : Use → Bool
  | close => true
  | _ => false

theorem run_served (access : Access) (use : Use) (w : World) :
    Served access (use.needsConnection access w.client) use.isClose w (failure? (use.run access w).1)
      (use.run access w).2 := by
  cases use with
  | connection =>
      rw [run, map_apply, failure?_map]
      exact connection_served access w
  | execute context text parameters =>
      rw [run, map_apply, failure?_map]
      exact send_served access context text parameters w
  | fetchOne context text parameters =>
      rw [run, map_apply, failure?_map]
      exact send_served access context text parameters w
  | fetchAll context text parameters =>
      rw [run, map_apply, failure?_map]
      exact send_served access context text parameters w
  | serverVersion =>
      rw [run, map_apply, failure?_map]
      exact serverVersion_served access w
  | close =>
      rw [run, map_apply, failure?_map]
      exact close_served access w

/-- A version that is known stays known, whatever a client is asked for. -/
theorem run_knownVersion (access : Access) (use : Use) {w : World} {n : Int}
    (h : w.client.knownVersion = some n) : (use.run access w).2.client.knownVersion = some n := by
  cases use with
  | connection =>
      rw [run, map_apply]
      exact (connection_knownVersion access w).trans h
  | execute context text parameters =>
      rw [run, map_apply]
      exact (send_knownVersion access context text parameters w).trans h
  | fetchOne context text parameters =>
      rw [run, map_apply]
      exact (send_knownVersion access context text parameters w).trans h
  | fetchAll context text parameters =>
      rw [run, map_apply]
      exact (send_knownVersion access context text parameters w).trans h
  | serverVersion =>
      rw [run, map_apply]
      exact serverVersion_knownVersion access h
  | close =>
      rw [run, map_apply, CommandLine.close_apply]
      exact h

end Use

/-! ### Turns -/

/-- A use, with the server that the client finds then, and whether the connection has been closed in the
meantime. -/
structure Turn where
  use : Use
  server : Server
  cut : Bool

namespace Turn

/-- The world as the use finds it. -/
def found (t : Turn) (w : World) : World :=
  { w with server := t.server, client := if t.cut then w.client.cutOff else w.client }

def played (access : Access) (t : Turn) (w : World) : Except Failure Gain × World :=
  t.use.run access (t.found w)

/-- What happens in a turn. -/
def seen (access : Access) (t : Turn) (w : World) : List Happening :=
  (t.played access w).2.since (t.found w)

/-- By how much the number of open connections changes in a turn. -/
def gain (access : Access) (t : Turn) (w : World) : Int :=
  (if t.cut && w.client.isJoined then -1 else 0) + ((t.seen access w).map t.server.gain).sum

theorem found_joins (t : Turn) (w : World) :
    (t.found w).client.joins = (if t.cut && w.client.isJoined then -1 else 0) + w.client.joins := by
  cases hcut : t.cut with
  | false => simp [found, hcut]
  | true => cases hjoined : w.client.isJoined <;> simp [found, hcut, joins, cutOff_isJoined, hjoined]

theorem found_unjoined (t : Turn) {w : World} (h : w.client.isJoined = false) :
    (t.found w).client.isJoined = false := by
  cases hcut : t.cut with
  | false => simp [found, hcut, h]
  | true => simp [found, hcut, cutOff_isJoined]

theorem found_knownVersion (t : Turn) (w : World) :
    (t.found w).client.knownVersion = w.client.knownVersion := by
  cases hcut : t.cut <;> simp [found, hcut, cutOff]

theorem gain_eq (access : Access) (t : Turn) (w : World) :
    t.gain access w = (t.played access w).2.client.joins - w.client.joins := by
  have hgain := (t.use.run_served access (t.found w)).booked.gain
  have hfound := t.found_joins w
  change ((t.seen access w).map t.server.gain).sum =
    (t.played access w).2.client.joins - (t.found w).client.joins at hgain
  rw [gain, hgain]
  omega

end Turn

/-- The world after some turns, which go on whether or not the uses fail. -/
def playedAll (access : Access) (w : World) : List Turn → World
  | [] => w
  | t :: turns => playedAll access (t.played access w).2 turns

/-- The number of connections that become open in some turns, less those that are closed again. -/
def gainedAll (access : Access) (w : World) : List Turn → Int
  | [] => 0
  | t :: turns => t.gain access w + gainedAll access (t.played access w).2 turns

theorem gainedAll_eq (access : Access) (w : World) (turns : List Turn) :
    gainedAll access w turns = (playedAll access w turns).client.joins - w.client.joins := by
  induction turns generalizing w with
  | nil => exact (sub_self _).symm
  | cons t turns ih =>
      rw [gainedAll, playedAll, ih, Turn.gain_eq]
      omega

theorem playedAll_knownVersion (access : Access) {w : World} {n : Int} (h : w.client.knownVersion = some n)
    (turns : List Turn) : (playedAll access w turns).client.knownVersion = some n := by
  induction turns generalizing w with
  | nil => exact h
  | cons t turns ih => exact ih (t.use.run_knownVersion access ((t.found_knownVersion w).trans h))

/-- A turn in which a connection is opened exactly if it is needed and there is none, and closed only when
that is asked for. An attempt that is refused leaves the client as it was, and is repeated in the next turn
that needs a connection. -/
structure Turn.Orderly (access : Access) (t : Turn) (w : World) : Prop where
  connects : (t.seen access w).countP Happening.isConnect =
    if t.use.needsConnection access (t.found w).client && !(t.found w).client.isJoined then 1 else 0
  disconnects : (t.seen access w).countP Happening.isDisconnect =
    if t.use.isClose && (t.found w).client.isJoined then 1 else 0
  closed : t.use = .close → (t.played access w).1 = .ok .done ∧
    (t.played access w).2.client = { (t.found w).client with link := none } ∧
    ((t.found w).client.isJoined = false → t.seen access w = [])
  refused : ∀ r, t.server.connectReplies.head?.join = some r →
    0 < (t.seen access w).countP Happening.isConnect →
      (t.played access w).1 = .error (r.ofConnection access.target) ∧
      (t.played access w).2.client = (t.found w).client ∧
      ∀ next : Turn, next.use.needsConnection access (next.found (t.played access w).2).client = true →
        (next.seen access (t.played access w).2).countP Happening.isConnect = 1

theorem Turn.orderly (access : Access) (t : Turn) (w : World) : t.Orderly access w := by
  have hserved := t.use.run_served access (t.found w)
  refine ⟨hserved.booked.connects, hserved.booked.disconnects, fun hclose => ?_, fun r hr hattempt => ?_⟩
  · have hplayed : t.played access w = (.ok .done, CommandLine.closed (t.found w)) := by
      rw [played, hclose, Use.run, map_apply, CommandLine.close_apply]
      rfl
    rw [seen, hplayed]
    refine ⟨rfl, rfl, fun hjoined => ?_⟩
    refine World.since_eq ((if_neg (hjoined ▸ Bool.false_ne_true)).trans (List.append_nil _).symm)
  · have hconnects := hserved.booked.connects
    change (t.seen access w).countP Happening.isConnect = _ at hconnects
    rw [hconnects] at hattempt
    split at hattempt
    case isFalse => exact absurd hattempt (Nat.lt_irrefl 0)
    case isTrue hneeds =>
      obtain ⟨hfailure, hclient⟩ := hserved.refused hneeds r hr
      refine ⟨eq_error_of_failure? hfailure, hclient, fun next hnext => ?_⟩
      have hagain := (next.use.run_served access (next.found (t.played access w).2)).booked.connects
      have hjoined : (next.found (t.played access w).2).client.isJoined = false := by
        refine next.found_unjoined ((congrArg isJoined hclient).trans ?_)
        exact (Bool.not_eq_true' _).mp (Bool.and_eq_true_iff.mp hneeds).2
      rw [hnext, hjoined] at hagain
      exact hagain

/-- A client has at most one connection open and knows of it, every turn is orderly, and a version that
has been told once is told ever after, without a look at the server. -/
theorem connections_are_kept (access : Access) (w : World) (turns : List Turn) :
    let start : World := { w with client := .start }
    let u := playedAll access start turns
    gainedAll access start turns = (if u.client.isJoined then 1 else 0) ∧
      (∀ t : Turn, t.Orderly access u) ∧
      ∀ n v, (Client.serverVersion access u = (.ok n, v) ∨ (u.client.knownVersion = some n ∧ u = v)) →
        ∀ later : List Turn, ∀ t : Turn, t.use = .serverVersion →
          t.played access (playedAll access v later) =
            (.ok (.version n), t.found (playedAll access v later)) := by
  intro start u
  have hgained : gainedAll access start turns = u.client.joins - 0 := gainedAll_eq access start turns
  rw [sub_zero] at hgained
  refine ⟨hgained, fun t => t.orderly access u, ?_⟩
  rintro n v hv later t ht
  have hknown : v.client.knownVersion = some n := by
    rcases hv with hasked | ⟨hremembered, rfl⟩
    · exact serverVersion_learns hasked
    · exact hremembered
  have hlater := playedAll_knownVersion access hknown later
  rw [Turn.played, ht, Use.run, map_apply, serverVersion_known access ((t.found_knownVersion _).trans hlater)]
  rfl

end Client

end CatalogSteward
