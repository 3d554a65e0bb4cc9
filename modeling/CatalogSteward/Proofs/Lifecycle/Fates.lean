import CatalogSteward.Proofs.Lifecycle.Visible

/-!
# What becomes of requests

A text that is to be sent is answered or refused, or there is no connection for it and it is not sent at
all. Which of this happens is found by following the client and the server through the exchanges, without
the rest of the world. Requests are made one after another until one is not answered, so of any number of
requests the first ones are sent, each once.
-/

namespace CatalogSteward

/-- A statement as it was sent, with its parameters. -/
def Happening.statement? : Happening → Option (String × Option (List Json))
  | .sql text parameters => some (text, parameters)
  | _ => none

/-- The statements that were sent so far, in order. -/
def World.statements (w : World) : List (String × Option (List Json)) :=
  w.trace.filterMap Happening.statement?

theorem World.statements_append {w u : World} {added : List Happening} (h : u.trace = w.trace ++ added) :
    u.statements = w.statements ++ added.filterMap Happening.statement? := by
  rw [statements, h, List.filterMap_append]
  rfl

namespace Act

theorem Silent.statements {α : Type} {a : Act α} (ha : Silent a) (w : World) :
    (a w).2.statements = w.statements := by
  obtain ⟨added, htrace, hsilent⟩ := ha w
  have hnone : added.filterMap Happening.statement? = [] := by
    rw [List.filterMap_eq_nil_iff]
    intro h hh
    have hkind := hsilent h hh
    cases h with
    | sql => cases hkind
    | _ => rfl
  rw [World.statements_append htrace, hnone, List.append_nil]

theorem bind_statements {α β : Type} (a : Act α) {f : α → Act β} (hf : ∀ x, Silent (f x)) (w : World) :
    ((a >>= f) w).2.statements = (a w).2.statements := by
  rcases ha : a w with ⟨e | x, u⟩
  · rw [bind_error ha]
  · rw [bind_ok ha]
    exact (hf x).statements u

theorem release_emits {kind : Happening → Prop} {mode : LockMode} {key : String}
    (hunlock : kind (.unlock mode key)) : Emits kind (release mode key) := by
  refine .get_bind fun w => ?_
  split
  · exact .bind (.of_trace fun _ => rfl) fun _ => .happen hunlock
  · exact .of_trace fun _ => rfl

theorem release_silent (mode : LockMode) (key : String) : Silent (release mode key) := release_emits rfl

/-- A section sends what its operation sends. -/
theorem locked_statements {α : Type} {mode : LockMode} {key : String} {w : World} (a : Act α)
    (h : (w.locks.lock key).admits mode = true) :
    (locked mode key a w).2.statements = (a (w.entered mode key)).2.statements := by
  have hacquire : acquire mode key w = (.ok (), w.entered mode key) := by
    rw [acquire_ok (by rwa [LockRegistry.lock_ensure]), LockRegistry.lock_ensure]
    rfl
  have hsilent := (release_silent mode key).statements (a (w.entered mode key)).2
  rw [locked, bind_ok hacquire, always_apply]
  rcases hrelease : release mode key (a (w.entered mode key)).2 with ⟨_ | _, u⟩
  · rw [hrelease] at hsilent
    exact hsilent
  · rw [hrelease] at hsilent
    exact hsilent

end Act

/-! ### Fates -/

/-- What becomes of a text that is to be sent. -/
inductive Fate where
  | unreached
  | refused
  | answered
  deriving DecidableEq, Repr

namespace Client
open Act

/-- Whether there is an open connection or one can be opened, and the client and the server afterwards. -/
def dial (c : Client) (s : Server) : Bool × Client × Server :=
  match c.link with
  | some ⟨false, _⟩ => (true, c, s)
  | _ =>
    let after := { s with connectReplies := s.connectReplies.drop 1 }
    match s.connectReplies.head? with
    | some (some _) => (false, c, after)
    | some none | none => (true, { c with link := some ⟨false, s.version⟩ }, after)

/-- The fate of a text, and the client and the server afterwards. -/
def attempt (text : String) (parameters : Option (List Json)) (c : Client) (s : Server) :
    Fate × Client × Server :=
  match c.dial s with
  | (false, c, s) => (.unreached, c, s)
  | (true, c, s) =>
    let (result, after) := s.answer text parameters
    (if result.isOk then .answered else .refused, if s.hangsUp then c.cutOff else c, after)

section
variable {text : String} {parameters : Option (List Json)} {c d : Client} {s t after : Server}

theorem attempt_closed (h : c.dial s = (false, d, t)) :
    attempt text parameters c s = (.unreached, d, t) := by
  rw [attempt, h]

theorem attempt_open {result : Except Refusal (List (List Json))} (h : c.dial s = (true, d, t))
    (hanswer : t.answer text parameters = (result, after)) :
    attempt text parameters c s =
      (if result.isOk then .answered else .refused, if t.hangsUp then d.cutOff else d, after) := by
  rw [attempt, h]
  dsimp only
  rw [hanswer]

end

/-- The world after some statements, with the client and the server that they have led to. -/
structure Spoken (w : World) (c : Client) (s : Server) (said : List (String × Option (List Json)))
    (u : World) : Prop where
  client : u.client = c
  server : u.server = s
  statements : u.statements = w.statements ++ said

theorem Spoken.of_silent {α : Type} {a : Act α} (ha : Silent a) {w : World} {c : Client} {s : Server}
    (hclient : (a w).2.client = c) (hserver : (a w).2.server = s) : Spoken w c s [] (a w).2 :=
  ⟨hclient, hserver, by rw [ha.statements, List.append_nil]⟩

theorem Spoken.trans {w u v : World} {c d : Client} {s t : Server}
    {said more : List (String × Option (List Json))} (h : Spoken w c s said u) (k : Spoken u d t more v) :
    Spoken w d t (said ++ more) v :=
  ⟨k.client, k.server, by rw [k.statements, h.statements, List.append_assoc]⟩

theorem Spoken.said (w : World) (level : Level) (message : String) :
    Spoken w w.client w.server [] (w.said level message) := by
  have hsay : Silent (say level message) := .say (fun _ _ => rfl) level message
  have hsaid := Spoken.of_silent hsay (w := w) (by rw [say_apply]) (by rw [say_apply])
  rwa [say_apply] at hsaid

/-- The client and the server after a request that has a fate, and the statements that it adds. -/
abbrev Meets (w : World) (text : String) (parameters : Option (List Json)) (u : World) : Prop :=
  Spoken w (attempt text parameters w.client w.server).2.1 (attempt text parameters w.client w.server).2.2
    (if (attempt text parameters w.client w.server).1 = .unreached then [] else [(text, parameters)]) u

theorem connection_dial (access : Access) (w : World) :
    (connection access w).1.isOk = (w.client.dial w.server).1 ∧
      Spoken w (w.client.dial w.server).2.1 (w.client.dial w.server).2.2 [] (connection access w).2 := by
  suffices h : (connection access w).1.isOk = (w.client.dial w.server).1 ∧
      (connection access w).2.client = (w.client.dial w.server).2.1 ∧
      (connection access w).2.server = (w.client.dial w.server).2.2 by
    exact ⟨h.1, .of_silent (connection_silent access) h.2.1 h.2.2⟩
  obtain ⟨_, _, _, _, _, _, _, ⟨_, _, _, replies⟩, ⟨link, _⟩, _, _, _⟩ := w
  rcases link with _ | ⟨_ | _, n⟩
  case some.false => exact ⟨rfl, rfl, rfl⟩
  all_goals
    rw [connection, get_bind]
    dsimp only
    rw [bind_ok (say_apply ..), bind_ok (happen_apply ..), get_bind]
    rcases replies with _ | ⟨_ | ⟨_ | _⟩, replies⟩ <;> exact ⟨rfl, rfl, rfl⟩

/-- A text is sent unless there is no connection for it; it gets rows exactly when it is answered. -/
theorem send_attempt (access : Access) (context text : String) (parameters : Option (List Json))
    (w : World) :
    ((send access context text parameters w).1.isOk = true ↔
        (attempt text parameters w.client w.server).1 = .answered) ∧
      Meets w text parameters (send access context text parameters w).2 := by
  have hsaid := Spoken.said w .debug ("SQL: " ++ text)
  obtain ⟨hopen, hconnection⟩ := connection_dial access (w.said .debug ("SQL: " ++ text))
  rw [hsaid.client, hsaid.server] at hopen hconnection
  have hresult (r : Except Failure Link) (u : World)
      (h : connection access (w.said .debug ("SQL: " ++ text)) = (r, u)) :
      r.isOk = (w.client.dial w.server).1 ∧
        Spoken w (w.client.dial w.server).2.1 (w.client.dial w.server).2.2 [] u := by
    rw [h] at hopen hconnection
    exact ⟨hopen, hsaid.trans hconnection⟩
  rw [send, bind_ok (say_apply ..), bind_apply, Meets]
  rcases hconnected : connection access (w.said .debug ("SQL: " ++ text)) with ⟨f | link, u⟩
  · obtain ⟨hclosed, hu⟩ := hresult _ _ hconnected
    rcases hdial : w.client.dial w.server with ⟨_ | _, c, s⟩ <;> rw [hdial] at hclosed hu
    · rw [attempt_closed hdial]
      exact ⟨⟨fun h => (by cases h), fun h => by cases h⟩, hu⟩
    · cases hclosed
  · obtain ⟨hopen, hu⟩ := hresult _ _ hconnected
    rcases hdial : w.client.dial w.server with ⟨_ | _, c, s⟩ <;> rw [hdial] at hopen hu
    · cases hopen
    · have hsent {d : Client} {t : Server} : Spoken w d t [(text, parameters)]
          { u with trace := u.trace ++ [.sql text parameters], server := t, client := d } :=
        ⟨rfl, rfl, (World.statements_append (w := u) rfl).trans (by rw [hu.statements, List.append_nil]; rfl)⟩
      dsimp only
      rw [bind_ok (happen_apply ..), get_bind]
      dsimp only
      rw [bind_ok (modify_apply ..), hu.server, hu.client]
      rcases hanswer : s.answer text parameters with ⟨(e | d) | rows, t⟩ <;>
        rw [attempt_open hdial hanswer]
      · exact ⟨⟨fun h => (by cases h), fun h => by cases h⟩, hsent⟩
      · exact ⟨⟨fun h => (by cases h), fun h => by cases h⟩, hsent⟩
      · exact ⟨⟨fun _ => rfl, fun _ => rfl⟩, hsent⟩

/-! ### The version of the server -/

theorem attempt_knownVersion (text : String) (parameters : Option (List Json)) (c : Client) (s : Server) :
    (attempt text parameters c s).2.1.knownVersion = c.knownVersion := by
  have hdial : (c.dial s).2.1.knownVersion = c.knownVersion := by
    rw [dial]
    split
    · rfl
    · dsimp only
      split <;> rfl
  rcases h : c.dial s with ⟨_ | _, d, t⟩ <;> rw [h] at hdial
  · rw [attempt_closed h]
    exact hdial
  · rw [attempt_open h rfl]
    dsimp only
    split
    · exact hdial
    · exact hdial

theorem serverVersion_learns {access : Access} {w u : World} {n : Int}
    (h : serverVersion access w = (.ok n, u)) : u.client.knownVersion = some n := by
  have hlearn {a : Act Int} (ha : (a >>= fun n => do
      modify fun w => { w with client := { w.client with knownVersion := some n } }
      return n : Act Int) w = (.ok n, u)) : u.client.knownVersion = some n := by
    rcases hm : a w with ⟨f | m, v⟩
    · rw [bind_error hm] at ha
      cases ha
    · rw [bind_ok hm, bind_ok (modify_apply _ v)] at ha
      obtain ⟨hm, rfl⟩ := Prod.mk.inj ha
      exact congrArg some (Except.ok.inj hm)
  rw [serverVersion, get_bind] at h
  cases hknown : w.client.knownVersion with
  | some m =>
      rw [hknown] at h
      obtain ⟨hm, rfl⟩ := Prod.mk.inj h
      rw [hknown, Except.ok.inj hm]
  | none =>
      rw [hknown] at h
      dsimp only at h
      cases hexpected : access.settings.connection.expectedVersion.filter (· ≠ "") with
      | none =>
          simp only [hexpected] at h
          rw [← bind_assoc] at h
          exact hlearn h
      | some text =>
          simp only [hexpected] at h
          rcases hparse : Version.parse text with (_ | _) | m <;> rw [hparse] at h <;> exact hlearn h

/-- A client that was let through the gate knows that the server has extensions. -/
theorem requireExtensions_clears {access : Access} {resource : String} {w u : World}
    (h : requireExtensions access resource w = (.ok (), u)) : u.client.Cleared := by
  rcases hn : serverVersion access w with ⟨f | n, v⟩
  · rw [requireExtensions, bind_error hn] at h
    cases h
  · rw [requireExtensions, bind_ok hn] at h
    cases hsupports : Version.supportsExtensions n with
    | true =>
        rw [hsupports] at h
        obtain ⟨-, rfl⟩ := Prod.mk.inj h
        exact ⟨n, serverVersion_learns hn, hsupports⟩
    | false =>
        rw [hsupports] at h
        cases h

end Client

/-! ### Requests -/

namespace Lifecycle
open Act Client

namespace Request

/-- What is sent for a request. -/
def sending (q : Request) : String × Option (List Json) := (q.text, q.parameters)

/-- The statement of a request that changes an extension; the others are queries. -/
def statement? : Request → Option Statement
  | .create d => some (.create d.name d.schema d.version)
  | .relocate name schema => some (.relocate name schema)
  | .reversion name version => some (.reversion name version)
  | .drop name => some (.drop name)
  | .find _ => none
  | .has _ => none

theorem text_of_statement {q : Request} {s : Statement} (h : q.statement? = some s) : q.text = s.text := by
  cases q <;> cases h <;> rfl

theorem interpret_change {q : Request} (h : q.statement?.isSome) (rows : List (List Json)) :
    q.interpret rows = .ok .nothing := by
  cases q with
  | find => cases h
  | has => cases h
  | _ => rfl

/-- What a request does before its text is sent tells nothing to the server. -/
theorem prelude_spoken (access : Access) (q : Request) {w : World} (hw : w.client.Cleared)
    (hq : q.check = .ok ()) :
    ∃ u, q.prelude access w = (.ok (), u) ∧ Spoken w w.client w.server [] u := by
  have hsay (message : String) := Spoken.said w .step message
  have hnone : Spoken w w.client w.server [] w := ⟨rfl, rfl, (List.append_nil _).symm⟩
  cases q with
  | create d =>
      refine ⟨_, ?_, hsay ("Creating extension '" ++ d.name ++ "'")⟩
      rw [prelude, bind_ok (requireExtensions_cleared access _ hw), say_apply]
  | find name => exact ⟨w, rfl, hnone⟩
  | has name => exact ⟨w, rfl, hnone⟩
  | relocate name schema =>
      rw [check] at hq
      rw [prelude]
      cases hchecked : Rules.checkSchemaChange name schema with
      | error e =>
          rw [hchecked] at hq
          cases hq
      | ok checked => exact ⟨_, say_apply .., hsay _⟩
  | reversion name version => exact ⟨_, say_apply .., hsay _⟩
  | drop name => exact ⟨_, say_apply .., hsay _⟩

end Request

/-- The fates of requests, up to the first one that was not answered. -/
def fates : List Request → Client → Server → List Fate
  | [], _, _ => []
  | q :: qs, c, s =>
    match attempt q.text q.parameters c s with
    | (.answered, c, s) => .answered :: fates qs c s
    | (fate, _, _) => [fate]

/-- The number of texts that were sent. -/
def reached (outcomes : List Fate) : Nat := outcomes.countP (· ≠ .unreached)

theorem performAll_statements (access : Access) (qs : List Request) (reply : Reply) {w : World}
    (hw : w.client.Cleared) (hchecks : ∀ q ∈ qs, q.check = .ok ())
    (hchanges : ∀ q ∈ qs.dropLast, q.statement?.isSome) :
    (performAll access qs reply w).2.statements =
      w.statements ++ (qs.take (reached (fates qs w.client w.server))).map Request.sending := by
  induction qs generalizing reply w with
  | nil => exact (List.append_nil _).symm
  | cons q qs ih =>
      obtain ⟨u, hprelude, hu⟩ := q.prelude_spoken access hw (hchecks q List.mem_cons_self)
      obtain ⟨hanswered, hsent⟩ := send_attempt access q.context q.text q.parameters u
      rw [Meets, hu.client, hu.server] at hsent
      rw [hu.client, hu.server] at hanswered
      have hafter := hu.trans hsent
      rw [performAll, Request.perform_eq, bind_assoc, bind_ok hprelude, bind_assoc, fates]
      rcases hsend : send access q.context q.text q.parameters u with ⟨f | rows, v⟩ <;>
        rw [hsend] at hanswered hafter <;>
        rcases hattempt : attempt q.text q.parameters w.client w.server with ⟨_ | _ | _, d, t⟩ <;>
        rw [hattempt] at hanswered hafter
      · rw [bind_error hsend]
        exact hafter.statements
      · rw [bind_error hsend]
        exact hafter.statements
      · cases hanswered.mpr rfl
      · cases hanswered.mp rfl
      · cases hanswered.mp rfl
      · rw [bind_ok hsend]
        have hcleared : v.client.Cleared := by
          obtain ⟨n, hn, hsupports⟩ := hw
          refine ⟨n, ?_, hsupports⟩
          have hknown := attempt_knownVersion q.text q.parameters w.client w.server
          rw [hattempt] at hknown
          rw [hafter.client, hknown, hn]
        -- only the last request may read rows, and nothing depends on what it makes of them
        cases qs with
        | nil =>
            cases q.interpret rows <;> exact hafter.statements
        | cons next qs =>
            have hinterpret := Request.interpret_change (hchanges q (by simp)) rows
            rw [hinterpret, bind_ok (liftM_apply ..)]
            rw [ih .nothing hcleared (fun q hq => hchecks q (List.mem_cons_of_mem _ hq))
              (fun q hq => hchanges q (by simp [hq]))]
            rw [hafter.statements, hafter.client, hafter.server]
            simp [reached, Request.sending]

/-! ### What the fates can be -/

/-- The fates of a number of requests: as many answers, or fewer and then one request that was not
answered. -/
inductive Fated (count : Nat) : List Fate → Prop where
  | answered : Fated count (List.replicate count .answered)
  | refused {k : Nat} (h : k < count) : Fated count (List.replicate k .answered ++ [.refused])
  | unreached {k : Nat} (h : k < count) : Fated count (List.replicate k .answered ++ [.unreached])

theorem Fated.cons {count : Nat} {outcomes : List Fate} (h : Fated count outcomes) :
    Fated (count + 1) (.answered :: outcomes) := by
  cases h with
  | answered => exact .answered
  | refused hk => exact .refused (Nat.succ_lt_succ hk)
  | unreached hk => exact .unreached (Nat.succ_lt_succ hk)

theorem fated_fates (qs : List Request) (c : Client) (s : Server) : Fated qs.length (fates qs c s) := by
  induction qs generalizing c s with
  | nil => exact .answered
  | cons q qs ih =>
      rw [fates]
      rcases attempt q.text q.parameters c s with ⟨_ | _ | _, d, t⟩
      · exact .unreached (k := 0) (Nat.succ_pos _)
      · exact .refused (k := 0) (Nat.succ_pos _)
      · exact (ih d t).cons

namespace Fated

variable {count : Nat} {outcomes : List Fate}

theorem reached_answered (k : Nat) : reached (List.replicate k .answered) = k := by
  rw [reached, List.countP_replicate]
  rfl

theorem reached_refused (k : Nat) : reached (List.replicate k .answered ++ [.refused]) = k + 1 := by
  rw [reached, List.countP_append]
  exact congrArg (· + 1) (reached_answered k)

theorem reached_unreached (k : Nat) : reached (List.replicate k .answered ++ [.unreached]) = k := by
  rw [reached, List.countP_append]
  exact reached_answered k

theorem reached_le (h : Fated count outcomes) : reached outcomes ≤ count := by
  cases h with
  | answered => rw [reached_answered]
  | refused hk => rwa [reached_refused]
  | unreached hk => rw [reached_unreached]; exact Nat.le_of_lt hk

/-- All texts are sent when there was a connection for each and none before the last was refused. -/
theorem reached_eq_iff (h : Fated count outcomes) (hcount : count ≠ 0) :
    reached outcomes = count ↔ .unreached ∉ outcomes ∧ .refused ∉ outcomes.take (count - 1) := by
  cases h with
  | answered => simp [reached_answered, List.mem_replicate]
  | @refused k hk =>
      rw [reached_refused]
      have hlength : (List.replicate k Fate.answered).length = k := List.length_replicate
      constructor
      · rintro rfl
        simp [List.mem_replicate]
      · rintro ⟨-, hrefused⟩
        by_contra hne
        refine hrefused (List.mem_take_iff_getElem.mpr ⟨k, ?_, ?_⟩)
        · simp only [List.length_append, hlength, List.length_singleton]
          omega
        · simp
  | @unreached k hk =>
      rw [reached_unreached]
      exact ⟨fun h => absurd h (Nat.ne_of_lt hk), fun ⟨h, _⟩ => absurd (by simp) h⟩

theorem before_last (h : Fated count outcomes) {i : Nat} (hi : i + 1 < reached outcomes) :
    outcomes[i]? = some .answered := by
  have hget (k : Nat) (rest : List Fate) (hk : i < k) :
      (List.replicate k Fate.answered ++ rest)[i]? = some .answered := by
    rw [List.getElem?_append_left (by simpa using hk)]
    simp [hk]
  cases h with
  | answered =>
      rw [reached_answered] at hi
      have h := hget count [] (by omega)
      rwa [List.append_nil] at h
  | refused hk =>
      rw [reached_refused] at hi
      exact hget _ _ (by omega)
  | unreached hk =>
      rw [reached_unreached] at hi
      exact hget _ _ (by omega)

/-- What ends the requests early: the last text was refused, or there was no connection for the next. -/
theorem at_end (h : Fated count outcomes) (hpos : 0 < reached outcomes) (hlt : reached outcomes < count) :
    outcomes[reached outcomes - 1]? = some .refused ∨ outcomes[reached outcomes]? = some .unreached := by
  cases h with
  | answered =>
      rw [reached_answered] at hlt
      exact absurd hlt (Nat.lt_irrefl _)
  | refused hk =>
      rw [reached_refused]
      exact .inl (by simp)
  | unreached hk =>
      rw [reached_unreached]
      exact .inr (by simp)

end Fated

end Lifecycle

end CatalogSteward
