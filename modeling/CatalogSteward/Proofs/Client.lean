import CatalogSteward.Extension.Gateway
import CatalogSteward.Proofs.Act
import CatalogSteward.Proofs.Version

/-!
# What a client does to the world

A client that talks to a server for which no answers were laid down can always connect. What it learns of
the version of the server never changes afterwards, so the decision whether the server has extensions is
the same every time it is asked for. A text that is sent changes nothing in the world but the catalog, as
the catalog itself says, the client's connection and the trace.

Where the settings expect a version, no connection is needed to know it.
-/

namespace CatalogSteward

/-- A server for which no answers were laid down. -/
structure Server.Unscripted (s : Server) : Prop where
  replies : s.replies = []
  connectReplies : s.connectReplies = []

theorem Server.answer_unscripted {s : Server} (h : s.replies = []) (text : String)
    (parameters : Option (List Json)) :
    s.answer text parameters =
      match regular s.catalog text parameters with
      | .ok (rows, c) => (.ok rows, { s with catalog := c })
      | .error r => (.error r, s) := by
  obtain ⟨catalog, version, replies, connectReplies⟩ := s
  obtain rfl := h
  rfl

theorem Server.hangsUp_unscripted {s : Server} (h : s.replies = []) : s.hangsUp = false := by
  rw [hangsUp, h]
  rfl

/-- A world in which nothing has happened yet, with nothing in it but a server. -/
def World.ofServer (s : Server) : World where
  disk := ⟨[]⟩
  environment := []
  actor := ⟨0, none⟩
  now := default
  tickets := 0
  keyboard := []
  console := .start
  server := s
  client := .start
  locks := []
  trail := none
  trace := []

def World.withClient (w : World) (client : Client) (trace : List Happening) : World :=
  { w with client := client, trace := trace }

def World.withCatalog (w : World) (c : Catalog) : World :=
  { w with server := { w.server with catalog := c } }

namespace Client
open Act

/-- The version of an open connection, or that of the server to which a connection would be opened. -/
def linkVersion (c : Client) (serverVersion : Int) : Int :=
  match c.link with
  | some ⟨false, version⟩ => version
  | _ => serverVersion

def version (access : Access) (c : Client) (serverVersion : Int) : Except Failure Int :=
  match c.knownVersion with
  | some n => .ok n
  | none =>
    match access.settings.connection.expectedVersion.filter (· ≠ "") with
    | some text =>
      match Version.parse text with
      | .ok n => .ok n
      | .error (.notDotted text) => .error (.error (.version text))
      | .error (.notNumber r) => .error (.fault (.version r))
    | none => .ok (c.linkVersion serverVersion)

def admitVersion (resource : String) (n : Int) : Except Failure Unit :=
  if Version.supportsExtensions n then .ok () else .error (.error (.unsupported resource n))

/-- The decision whether the server has extensions. -/
def verdict (access : Access) (resource : String) (c : Client) (serverVersion : Int) :
    Except Failure Unit :=
  (c.version access serverVersion).bind (admitVersion resource)

/-- A client that knows that the server has extensions. -/
def Cleared (c : Client) : Prop := ∃ n, c.knownVersion = some n ∧ Version.supportsExtensions n = true

/-- A conversation with the server that has led to a catalog: nothing else is changed in the world but the
client and the trace, and the client thinks of the version of the server as it did before. -/
structure Talk (access : Access) (w : World) (c : Catalog) (u : World) : Prop where
  world : u = (w.withCatalog c).withClient u.client u.trace
  version : u.client.version access w.server.version = w.client.version access w.server.version
  cleared : w.client.Cleared → u.client.Cleared

namespace Talk

variable {access : Access} {w u v : World} {c d : Catalog}

theorem refl (access : Access) (w : World) : Talk access w w.server.catalog w := ⟨rfl, rfl, id⟩

theorem server (h : Talk access w c u) : u.server = { w.server with catalog := c } := by
  rw [h.world]
  rfl

theorem locks (h : Talk access w c u) : u.locks = w.locks := by
  rw [h.world]
  rfl

theorem unscripted (h : Talk access w c u) (hw : w.server.Unscripted) : u.server.Unscripted := by
  rw [h.server]
  exact ⟨hw.replies, hw.connectReplies⟩

theorem trans (h : Talk access w c u) (k : Talk access u d v) : Talk access w d v := by
  refine ⟨?_, ?_, k.cleared ∘ h.cleared⟩
  · rw [k.world, h.world]
    rfl
  · have hversion : u.server.version = w.server.version := by rw [h.server]
    rw [← h.version, ← hversion]
    exact k.version

theorem said (access : Access) (w : World) (level : Level) (message : String) :
    Talk access w w.server.catalog (w.said level message) := ⟨rfl, rfl, id⟩

end Talk

/-! ### Connections -/

theorem connection_apply (access : Access) {w : World} (hw : w.server.connectReplies = []) :
    ∃ u, connection access w = (.ok ⟨false, w.client.linkVersion w.server.version⟩, u) ∧
      Talk access w w.server.catalog u := by
  obtain ⟨_, _, _, _, _, _, _, ⟨_, _, _, _⟩, ⟨link, _⟩, _, _, _⟩ := w
  obtain rfl := hw
  rcases link with _ | ⟨_ | _, n⟩
  case some.false => exact ⟨_, rfl, .refl _ _⟩
  all_goals
    rw [connection, get_bind]
    dsimp only
    rw [bind_ok (say_apply ..), bind_ok (happen_apply ..), get_bind]
    exact ⟨_, rfl, rfl, rfl, id⟩

/-! ### The version of the server -/

theorem serverVersion_known (access : Access) {w : World} {n : Int} (h : w.client.knownVersion = some n) :
    serverVersion access w = (.ok n, w) := by
  rw [serverVersion, get_bind, h]
  rfl

/-- The version of the server is kept once it has been told. -/
theorem serverVersion_apply (access : Access) {w : World} (hw : w.server.connectReplies = []) :
    ∃ u, serverVersion access w = (w.client.version access w.server.version, u) ∧
      Talk access w w.server.catalog u ∧
      ∀ n, w.client.version access w.server.version = .ok n → u.client.knownVersion = some n := by
  cases hknown : w.client.knownVersion with
  | some n =>
      have hversion : w.client.version access w.server.version = .ok n := by rw [version, hknown]
      rw [serverVersion_known access hknown, hversion]
      exact ⟨w, rfl, .refl access w, fun m hm => by rw [hknown, Except.ok.inj hm]⟩
  | none =>
      -- What is learnt is what the client would have said before.
      have hlearnt {n : Int} {u : World} (hu : Talk access w w.server.catalog u)
          (hn : w.client.version access w.server.version = .ok n) :
          Talk access w w.server.catalog { u with client := { u.client with knownVersion := some n } } :=
        ⟨by rw [hu.world]; rfl, hn.symm, fun ⟨m, hm, _⟩ => absurd (hknown.symm.trans hm) (by simp)⟩
      have hversion := version.eq_def access w.client w.server.version
      rw [hknown] at hversion
      rw [serverVersion, get_bind, hknown]
      dsimp only at hversion ⊢
      cases hexpected : access.settings.connection.expectedVersion.filter (· ≠ "") with
      | some text =>
          simp only [hexpected] at hversion ⊢
          rcases hparse : Version.parse text with (text | r) | n
          · rw [hparse] at hversion
            exact ⟨w, by rw [hversion]; rfl, .refl access w, fun n hn => by cases hversion.symm.trans hn⟩
          · rw [hparse] at hversion
            exact ⟨w, by rw [hversion]; rfl, .refl access w, fun n hn => by cases hversion.symm.trans hn⟩
          · rw [hparse] at hversion
            refine ⟨_, by rw [hversion]; rfl, hlearnt (.refl access w) hversion, fun m hm => ?_⟩
            exact congrArg some (Except.ok.inj (hversion.symm.trans hm))
      | none =>
          simp only [hexpected] at hversion ⊢
          obtain ⟨u, hconnection, hu⟩ := connection_apply access hw
          rw [bind_ok hconnection]
          refine ⟨_, by rw [hversion]; rfl, hlearnt hu hversion, fun m hm => ?_⟩
          exact congrArg some (Except.ok.inj (hversion.symm.trans hm))

/-- An expected version is known without a connection, unless it has no number. -/
theorem serverVersion_expected {access : Access} {text : String}
    (hexpected : access.settings.connection.expectedVersion = some text) (hne : text ≠ "") {w : World}
    (hfresh : w.client.knownVersion = none) :
    serverVersion access w =
      match Version.parse text with
      | .ok n => (.ok n, { w with client := { w.client with knownVersion := some n } })
      | .error (.notDotted text) => (.error (.error (.version text)), w)
      | .error (.notNumber r) => (.error (.fault (.version r)), w) := by
  rw [serverVersion, get_bind, hfresh]
  dsimp only
  rw [hexpected, Option.filter_some, if_pos (decide_eq_true hne)]
  dsimp only
  rcases Version.parse text with (_ | _) | _ <;> rfl

/-- Where no version is expected it is that of the connection, and it is remembered. -/
theorem serverVersion_unexpected {access : Access}
    (hexpected : access.settings.connection.expectedVersion.filter (· ≠ "") = none) {w : World}
    (hfresh : w.client.knownVersion = none) :
    serverVersion access w =
      match connection access w with
      | (.ok link, u) =>
        (.ok link.version, { u with client := { u.client with knownVersion := some link.version } })
      | (.error f, u) => (.error f, u) := by
  rw [serverVersion, get_bind, hfresh]
  simp only [hexpected]
  rw [bind_apply]
  rcases connection access w with ⟨_ | _, _⟩ <;> rfl

/-- An expected version that passes the check is the version of the server, as a number, if its digits are
numerals and its groups are not too long; else asking for the version ends in the fault that reading its
digits ends in. The blanks around it do not matter, whether they were kept or dropped. -/
theorem accepted_versions_are_answered {given checked expected : String}
    (hchecked : Rules.checkVersion given = .ok checked) (hkept : expected = given ∨ expected = checked)
    {access : Access} (hexpected : access.settings.connection.expectedVersion = some expected) {w : World}
    (hknown : ∀ n ∈ w.client.knownVersion, Version.parse given = .ok n) :
    (Version.IsNumeric given → ∃ n, Version.parse given = .ok n ∧
      serverVersion access w = (.ok n, { w with client := { w.client with knownVersion := some n } })) ∧
      (¬Version.IsNumeric given → ∃ refusal, Version.parse given = .error (.notNumber refusal) ∧
        serverVersion access w = (.error (.fault (.version refusal)), w)) := by
  obtain ⟨rfl, hgrouped⟩ := Version.checkVersion_eq_ok_iff.mp hchecked
  have hdotted := Version.isDotted_iff.mpr hgrouped
  obtain ⟨hnumeric, hunread⟩ := Version.parse_dotted hdotted
  have hparse : Version.parse expected = Version.parse given := by
    obtain rfl | rfl := hkept
    · rfl
    · exact Version.parse_strip hdotted
  have hne : expected ≠ "" := by
    rintro rfl
    by_cases h : Version.IsNumeric given
    · obtain ⟨n, hn⟩ := hnumeric h
      cases hparse.trans hn
    · obtain ⟨r, hr⟩ := hunread h
      cases hparse.trans hr
  have hfresh {w : World} (hw : w.client.knownVersion = none) := serverVersion_expected hexpected hne hw
  rw [hparse] at hfresh
  constructor
  · intro h
    obtain ⟨n, hn⟩ := hnumeric h
    refine ⟨n, hn, ?_⟩
    cases hw : w.client.knownVersion with
    | none => rw [hfresh hw, hn]
    | some m =>
        obtain rfl : n = m := Except.ok.inj (hn.symm.trans (hknown m hw))
        rw [serverVersion_known access hw, ← hw]
  · intro h
    obtain ⟨r, hr⟩ := hunread h
    refine ⟨r, hr, ?_⟩
    cases hw : w.client.knownVersion with
    | none => rw [hfresh hw, hr]
    | some m => cases hr.symm.trans (hknown m hw)

/-- Access to a server that is expected to be of a version. -/
def expecting (version : String) : Access where
  settings := ⟨{ Connection.default with expectedVersion := some version }, .default⟩
  password := none

/-- A server of another version, to which no connection is open. -/
def unconnected : World := .ofServer ⟨.fresh, 90000, [], []⟩

theorem accepted_versions_are_answered_padded :
    Rules.checkVersion " 16.2 " = .ok "16.2" ∧ Version.IsNumeric " 16.2 " ∧
      serverVersion (expecting "16.2") unconnected =
        (.ok 160002, { unconnected with client := ⟨none, some 160002⟩ }) := by
  have hchecked : Rules.checkVersion " 16.2 " = .ok "16.2" := by rfl
  have hnumeric : Version.IsNumeric " 16.2 " := by decide
  have hknown : ∀ n ∈ unconnected.client.knownVersion, Version.parse " 16.2 " = .ok n :=
    fun n hn => by cases hn
  have hexpected : (expecting "16.2").settings.connection.expectedVersion = some "16.2" := rfl
  have hanswered := accepted_versions_are_answered hchecked (.inr rfl) hexpected hknown
  obtain ⟨n, hn, hversion⟩ := hanswered.1 hnumeric
  obtain rfl : 160002 = n := Except.ok.inj hn
  exact ⟨hchecked, hnumeric, hversion⟩

/-- The version sixteen, after so many zeros that it is too long to be read. -/
def sixteenAfterZeros : List Char := List.replicate 4299 '0' ++ ['1', '6']

/-- Two versions that are let through and have no number: a raised two, which is a digit without a decimal
value, and sixteen after too many zeros. -/
theorem versions_without_number_are_not_answered :
    (Rules.checkVersion "²" = .ok "²" ∧
      serverVersion (expecting "²") unconnected =
        (.error (.fault (.version (.malformed 10 "²"))), unconnected)) ∧
      Rules.checkVersion (String.ofList sixteenAfterZeros) = .ok (String.ofList sixteenAfterZeros) ∧
        serverVersion (expecting (String.ofList sixteenAfterZeros)) unconnected =
          (.error (.fault (.version (.tooLong 4301))), unconnected) := by
  have hfresh : unconnected.client.knownVersion = none := rfl
  have hgiven (version : String) : (expecting version).settings.connection.expectedVersion = some version := rfl
  have hexpected {version : String} (hne : version ≠ "") := serverVersion_expected (hgiven version) hne hfresh
  have hdotted : Version.isDotted "²" = true := by decide +kernel
  have hraised : Version.parse "²" = .error (.notNumber (.malformed 10 "²")) := by
    rw [Version.parse, if_pos hdotted]
    rfl
  have hdigits : ∀ c ∈ sixteenAfterZeros, Decimal.IsDigit c := by
    intro c hc
    obtain hzero | hlast := List.mem_append.mp hc
    · rw [(List.mem_replicate.mp hzero).2]
      decide
    · obtain rfl | rfl := List.mem_pair.mp hlast
      · decide
      · decide
  have hlength : sixteenAfterZeros.length = 4301 := by
    rw [sixteenAfterZeros, List.length_append, List.length_replicate]
    rfl
  have hlong := Version.parse_long hdigits (hlength ▸ by decide)
  refine ⟨⟨?_, ?_⟩, Version.checkVersion_digits (List.ne_nil_of_length_eq_add_one hlength) hdigits, ?_⟩
  · rw [Rules.checkVersion, if_pos hdotted]
    rfl
  · rw [hexpected (by decide), hraised]
  · have hne : String.ofList sixteenAfterZeros ≠ "" := fun h => by
      rw [h] at hlong
      cases hlong
    rw [hexpected hne, hlong, hlength]

theorem requireExtensions_cleared (access : Access) (resource : String) {w : World}
    (h : w.client.Cleared) : requireExtensions access resource w = (.ok (), w) := by
  obtain ⟨n, hknown, hn⟩ := h
  rw [requireExtensions, bind_ok (serverVersion_known access hknown), hn]
  rfl

/-- A client that has been told once that the server has extensions knows it. -/
theorem requireExtensions_apply (access : Access) (resource : String) {w : World}
    (hw : w.server.connectReplies = []) :
    ∃ u, requireExtensions access resource w =
        (w.client.verdict access resource w.server.version, u) ∧
      Talk access w w.server.catalog u ∧
      (w.client.verdict access resource w.server.version = .ok () → u.client.Cleared) := by
  obtain ⟨u, hversion, hu, hknown⟩ := serverVersion_apply access hw
  refine ⟨u, ?_⟩
  rw [verdict, requireExtensions, bind_apply, hversion]
  cases hn : w.client.version access w.server.version with
  | error f => exact ⟨rfl, hu, fun h => by cases h⟩
  | ok n =>
      dsimp only
      rw [Except.bind, admitVersion]
      cases hsupports : Version.supportsExtensions n with
      | true => exact ⟨rfl, hu, fun _ => ⟨n, hknown n hn, hsupports⟩⟩
      | false => exact ⟨rfl, hu, fun h => by cases h⟩

/-! ### Statements and queries -/

/-- What a text leads to: the rows or the failure, and the catalog afterwards. -/
def exchange (context text : String) (parameters : Option (List Json)) (c : Catalog) :
    Except Failure (List (List Json)) × Catalog :=
  match Server.regular c text parameters with
  | .ok (rows, c) => (.ok rows, c)
  | .error (.condition e) => (.error (.error (.statement context text e)), c)
  | .error (.disruption d) => (.error (.fault (.disruption d)), c)

/-- A text that is sent changes the catalog as the catalog says. -/
theorem send_apply (access : Access) (context text : String) (parameters : Option (List Json))
    {w : World} (hw : w.server.Unscripted) :
    ∃ u, send access context text parameters w =
        ((exchange context text parameters w.server.catalog).1, u) ∧
      Talk access w (exchange context text parameters w.server.catalog).2 u := by
  have hsaid := Talk.said access w .debug ("SQL: " ++ text)
  obtain ⟨u, hconnection, hu⟩ := connection_apply access (hsaid.unscripted hw).connectReplies
  have htalk := hsaid.trans hu
  have hserver : u.server = w.server := htalk.server.trans (by rw [hsaid.server])
  rw [send, bind_ok (say_apply ..), bind_ok hconnection, bind_ok (happen_apply ..), get_bind]
  dsimp only
  rw [hserver, Server.answer_unscripted hw.replies, Server.hangsUp_unscripted hw.replies, exchange]
  have hworld := htalk.world
  rcases Server.regular w.server.catalog text parameters with (e | d) | ⟨rows, c⟩
  · exact ⟨_, rfl, ⟨by rw [hworld]; rfl, htalk.version, htalk.cleared⟩⟩
  · exact ⟨_, rfl, ⟨by rw [hworld]; rfl, htalk.version, htalk.cleared⟩⟩
  · exact ⟨_, rfl, ⟨by rw [hworld]; rfl, htalk.version, htalk.cleared⟩⟩

end Client

end CatalogSteward
