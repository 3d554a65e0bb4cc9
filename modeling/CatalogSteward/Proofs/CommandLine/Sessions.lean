import CatalogSteward.CommandLine.Session
import CatalogSteward.Proofs.Lifecycle.Discipline

/-!
# Sessions on a world

The building blocks of a command, evaluated: the configuration is read without any change, a session
starts with a new client and closes its connection in any case, and what is reported or asked for touches
the console and the keyboard alone.
-/

namespace CatalogSteward

/-! ### The disk -/

namespace DiskAct
open Act

/-- What only looks at the disk. -/
def Looks (d : Disk) (o : Option Failure) (e : Disk) : Prop := e = d ∧ ∀ f ∈ o, f.isOfLock = false

theorem looks_composes : Composes Looks where
  refl _ := ⟨rfl, fun _ h => by cases h⟩
  trans := fun h k => ⟨k.1.trans h.1, k.2⟩

theorem looks_throw {α : Type} {f : Failure} (h : f.isOfLock = false) : Leads Looks (throw f : DiskAct α) :=
  .throw fun _ => ⟨rfl, fun _ hg => Option.some.inj hg ▸ h⟩

theorem looks_ask {α : Type} (question : Disk → Except Disk.Fault α) : Leads Looks (ask question) := by
  refine .get_bind fun d => ?_
  split
  · exact looks_composes.pure _
  · exact looks_throw rfl

end DiskAct

theorem Settings.ofText_isOfLock {path : Path} {text : String} {f : Failure}
    (h : ofText path text = .error f) : f.isOfLock = false := by
  rw [ofText] at h
  split at h
  · cases h
    rfl
  · cases h
    rfl
  · dsimp only at h
    split at h
    · cases h
      rfl
    · next entries _ =>
        cases hread : conclude (readSettings entries) with
        | ok s => rw [hread] at h; cases h
        | error r => rw [hread] at h; cases h; rfl

theorem Settings.load_looks (path : Path) : Act.Leads DiskAct.Looks (load path) := by
  refine .get_bind fun d => ?_
  split
  · exact DiskAct.looks_throw rfl
  · exact DiskAct.looks_throw rfl
  · exact DiskAct.looks_throw rfl
  · split
    · exact DiskAct.looks_throw rfl
    · next text _ =>
        refine fun d => ⟨rfl, fun f hf => ?_⟩
        change f ∈ Act.failure? (ofText path text) at hf
        cases hread : ofText path text with
        | ok s => rw [hread] at hf; cases hf
        | error g =>
            rw [hread] at hf
            cases hf
            exact ofText_isOfLock hread

theorem Settings.loadOrDefault_looks (path : Path) : Act.Leads DiskAct.Looks (loadOrDefault path) := by
  refine DiskAct.looks_composes.bind (DiskAct.looks_ask _) fun isThere => ?_
  split
  · exact load_looks path
  · exact DiskAct.looks_composes.pure _

theorem Access.load_looks (path : Path) (environment : List (String × String)) :
    Act.Leads DiskAct.Looks (load path environment) := by
  have hcomposes := DiskAct.looks_composes
  refine hcomposes.bind (Settings.loadOrDefault_looks path) fun settings => ?_
  refine hcomposes.bind ?_ fun password => hcomposes.pure _
  refine .get_bind fun d => ?_
  have hfound {a : DiskAct (List (String × Option String))} (ha : Act.Leads DiskAct.Looks a) :
      Act.Leads DiskAct.Looks (do
        let bindings ← a
        return (valueOf (environment.map fun b => (b.1, some b.2)) passwordVariable).orElse fun _ =>
          valueOf bindings passwordVariable) :=
    hcomposes.bind ha fun bindings => hcomposes.pure _
  dsimp only
  split
  · split
    · exact hfound (DiskAct.looks_throw rfl)
    · split
      · exact hfound (DiskAct.looks_throw rfl)
      · exact hfound (hcomposes.pure _)
  · exact hfound (hcomposes.pure _)

/-- The access that an invocation finds in a world. -/
def Invocation.access (i : Invocation) (w : World) : Except Failure Access :=
  ((Access.load i.configPath w.environment).run w.disk).1

/-- The database that an invocation is about, if its configuration can be read. -/
def Invocation.target? (i : Invocation) (w : World) : Option String :=
  match i.access w with
  | .ok access => some access.target
  | .error _ => none

theorem Invocation.access_isOfLock {i : Invocation} {w : World} {f : Failure} (h : i.access w = .error f) :
    f.isOfLock = false := by
  refine (Access.load_looks i.configPath w.environment w.disk).2 f ?_
  change f ∈ Act.failure? (i.access w)
  rw [h]
  rfl

namespace CommandLine
open Act

theorem loadAccess_apply (i : Invocation) (w : World) : loadAccess i w = (i.access w, w) := by
  have hdisk := (Access.load_looks i.configPath w.environment w.disk).1
  have hset : ({ w with disk := ((Access.load i.configPath w.environment).run w.disk).2 } : World) = w :=
    congrArg (fun d => ({ w with disk := d } : World)) hdisk
  rw [loadAccess, get_bind, onDisk, get_bind]
  change (i.access w, _) = _
  exact congrArg _ hset

/-- A world with the trail that settings ask for. -/
def trailed (access : Access) (w : World) : World :=
  { w with
    tickets := w.tickets + 1
    trail := some (Trail.ofSettings access.settings.audit (w.tickets + 1)) }

theorem audited_apply {i : Invocation} {w : World} {access : Access}
    (h : i.access w = .ok access) : audited i w = (.ok access, trailed access w) := by
  rw [audited, bind_ok ((loadAccess_apply i w).trans (by rw [h]))]
  rfl

theorem audited_error {i : Invocation} {w : World} {f : Failure}
    (h : i.access w = .error f) : audited i w = (.error f, w) := by
  rw [audited, bind_error ((loadAccess_apply i w).trans (by rw [h]))]

/-- The world after the connection has been closed, if there was one. -/
def closed (w : World) : World :=
  { w with
    client := { w.client with link := none }
    trace := if w.client.isJoined then w.trace ++ [.disconnect] else w.trace }

theorem close_apply (w : World) : Client.close w = (.ok (), closed w) := by
  obtain ⟨_, _, _, _, _, _, _, _, ⟨link, _⟩, _, _, _⟩ := w
  rcases link with _ | ⟨_ | _, version⟩ <;> rfl

theorem session_apply {α : Type} (op : Act α) (w : World) :
    session op w = ((op { w with client := .start }).1, closed (op { w with client := .start }).2) := by
  rw [session, bind_ok (modify_apply _ w), always_apply, close_apply]

/-- Whether a question is answered with yes by the next line from the keyboard. -/
def agreed (default : Bool) (keyboard : List (Option String)) : Bool :=
  match keyboard.head?.join with
  | none => false
  | some line =>
    let answer := Text.lower (Text.strip line)
    if answer = "" then default else answer = "y" ∨ answer = "yes"

/-- The world after a question: the next line from the keyboard is used up. -/
def asked (message : String) (default : Bool) (w : World) : World :=
  { w with
    keyboard := w.keyboard.drop 1
    trace := w.trace ++ [.ask (Console.confirmation message default)] }

theorem confirm_apply (message : String) (default : Bool) (w : World) :
    confirm message default w = (.ok (agreed default w.keyboard), asked message default w) := by
  obtain ⟨_, _, _, _, _, keyboard, _, _, _, _, _, _⟩ := w
  rw [confirm, readLine, bind_assoc, bind_ok (happen_apply ..), bind_assoc, get_bind]
  rcases keyboard with _ | ⟨_ | line, lines⟩
  · rfl
  · rfl
  · rfl

end CommandLine

end CatalogSteward
