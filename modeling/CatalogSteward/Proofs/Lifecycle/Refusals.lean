import CatalogSteward.Proofs.Lifecycle.Course
import CatalogSteward.Proofs.Lifecycle.Dialogue

/-!
# What comes of a refusal

The server can refuse a statement or an attempt to connect with an error, and a connection can be
disrupted in other ways. Whichever happens first ends a call. An error is wrapped once: that of a statement
tells the statement and what it was sent for, that of an attempt to connect tells the target, also when the
attempt was made for a statement. Anything else comes out of the call as it is.
-/

namespace CatalogSteward

theorem Statement.context_written (s : Statement) : s.written.context = s.context := by
  cases s <;> rfl

theorem Query.select_text (q : Query) : "SELECT".toList.isPrefixOf q.text.toList = true := by
  cases q with
  | presence name => exact Server.select_presence
  | entry name => exact Server.select_entry
  | all => decide +kernel

theorem Query.context_of_text {q p : Query} (h : q.text = p.text) : q.context = p.context :=
  of_text (fun _ _ => rfl) (fun _ _ => rfl) h

/-- A text can be described in one way only. -/
theorem Describes.unique {context other text : String} (h : Describes context text)
    (k : Describes other text) : context = other := by
  have hmixed (s : Statement) (q : Query) : s.text ≠ q.text := by
    intro heq
    have hselect := Server.not_select_text s
    rw [heq, q.select_text] at hselect
    cases hselect
  rcases h with ⟨s, hs, rfl⟩ | ⟨q, hq, rfl⟩ <;> rcases k with ⟨t, ht, rfl⟩ | ⟨p, hp, rfl⟩
  · have hread : some s.written = some t.written := by
      rw [← Statement.read?_written, ← Statement.read?_written, hs, ht]
    rw [← s.context_written, ← t.context_written, Option.some.inj hread]
  · exact absurd (hs.trans hp.symm) (hmixed s p)
  · exact absurd (ht.trans hq.symm) (hmixed t q)
  · exact Query.context_of_text (hq.trans hp.symm)

/-! ### Reports -/

/-- The report of a statement that the server refused with an error. -/
def ServerError.ofStatement (e : ServerError) (context text : String) : Report where
  kind := .execution (some text) e.condition.code? (some e.condition)
  message := "Error " ++ context ++ ": "
    ++ if Text.strip e.message = "" then e.condition.name else Text.strip e.message
  hint := none
  details := (e.condition.code?.map fun code => "SQLSTATE: " ++ code).toList ++ ["Statement: " ++ text]

/-- The report of an attempt to connect that the server refused with an error. -/
def ServerError.ofConnection (e : ServerError) (target : String) : Report where
  kind := .execution none e.condition.code? (some e.condition)
  message := "Cannot connect to PostgreSQL at " ++ target
  hint := some "Check the postgres section of the configuration and PGSTATE_PASSWORD"
  details := e.message :: (e.condition.code?.map fun code => "SQLSTATE: " ++ code).toList

theorem Condition.line_code (c : Condition) :
    Report.line "SQLSTATE" c.code? = (c.code?.map fun code => "SQLSTATE: " ++ code).toList := by
  cases c <;> rfl

theorem Error.report_statement (context : String) {text : String} (htext : text ≠ "") (e : ServerError) :
    (Error.statement context text e).report = e.ofStatement context text := by
  have hline : Report.line "Statement" (some text) = ["Statement: " ++ text] := by
    rw [Report.line, if_neg htext]
    rfl
  rw [report, Report.ofExecution, Condition.line_code, hline]
  rfl

theorem Error.report_connection (target : String) (e : ServerError) :
    (Error.connection target e).report = e.ofConnection target := by
  rw [report, Report.ofExecution, Condition.line_code]
  exact congrArg _ (List.append_nil _)

/-! ### Calls -/

/-- What an operation does to a server, whether it holds locks or not. -/
def Exchanges (access : Access) (w : World) (o : Option Failure) (u : World) : Prop :=
  ∃ added, Exchanged access w o u added

namespace Exchanges
open Act

variable {access : Access} {α : Type}

theorem composes (access : Access) : Composes (Exchanges access) where
  refl _ := ⟨[], .idle (List.append_nil _).symm rfl fun _ h => absurd h List.not_mem_nil⟩
  trans := fun ⟨_, h⟩ ⟨_, k⟩ => ⟨_, h.trans k⟩

theorem of_converses {a : Act α} (h : Leads (Converses access) a) : Leads (Exchanges access) a :=
  h.mono fun _ _ _ ⟨added, hdialogue, _⟩ => ⟨added, hdialogue.toExchanged⟩

/-- Taking the lock and giving it back has nothing to do with the server. -/
theorem locked (mode : LockMode) (key : String) {a : Act α} (h : Leads (Converses access) a) :
    Leads (Exchanges access) (locked mode key a) := by
  intro w
  cases hadmits : (w.locks.lock key).admits mode with
  | false =>
      rw [locked_error hadmits]
      exact ⟨[], .idle (List.append_nil _).symm rfl fun _ h => absurd h List.not_mem_nil⟩
  | true =>
      obtain ⟨added, hdialogue, -, hbesides⟩ := h (w.entered mode key)
      have hlocks : (a (w.entered mode key)).2.locks = (w.entered mode key).locks := by rw [hbesides]
      obtain ⟨locks, hlocked, -⟩ := locked_apply (a := a) hadmits rfl hlocks
      rw [hlocked]
      have hentered : Exchanged access w none (w.entered mode key) [.lock mode key] :=
        .idle rfl rfl (by simp [Happening.isTraffic])
      have hidle : ∀ x ∈ [Happening.unlock mode key], x.isTraffic = false := by simp [Happening.isTraffic]
      exact ⟨_, hentered.trans (hdialogue.toExchanged.then_idle rfl rfl hidle)⟩

end Exchanges

namespace Lifecycle
open Act

theorem Request.text_ne_empty (q : Request) : q.text ≠ "" := by
  rcases q.describes with ⟨s, hs, -⟩ | ⟨p, hp, -⟩
  · intro heq
    have hread := s.read?_written
    rw [hs, heq, show Statement.read? "" = none by decide +kernel] at hread
    cases hread
  · intro heq
    have hselect := p.select_text
    rw [hp, heq] at hselect
    exact absurd hselect (by decide)

namespace Call

theorem run_exchanges (access : Access) (call : Call) : Leads (Exchanges access) (call.run access) := by
  have hcomposes := Exchanges.composes access
  rw [run_eq, staged]
  refine hcomposes.bind (.of_converses (call.prepare_converses access)) fun qs => ?_
  have hdelivered (answer : Answer) : Leads (Exchanges access) (checked (call.deliver answer)) :=
    .of_converses (.checked access _)
  dsimp only
  split
  · exact hcomposes.bind (.of_converses (call.settle_converses access)) hdelivered
  · exact hcomposes.bind (.locked _ _ (call.body_converses access qs)) hdelivered

/-- What a call sends is the beginning of its course. -/
theorem course_of_statements {access : Access} {call : Call} {w : World} {k : Nat}
    {said : List (String × Option (List Json))} {sent : String × Option (List Json)}
    (h : (call.run access w).2.statements = w.statements ++ said) (hk : said[k]? = some sent) :
    ∃ q, call.course[k]? = some q ∧ q.sending = sent := by
  by_cases hstarts : call.Starts access w
  · rw [statements_of_starts hstarts] at h
    rw [← List.append_cancel_left h, List.getElem?_map, Option.map_eq_some_iff] at hk
    obtain ⟨q, hq, hsent⟩ := hk
    rw [List.getElem?_take] at hq
    split at hq
    · exact ⟨q, hq, hsent⟩
    · cases hq
  · rw [statements_of_not_starts hstarts] at h
    obtain rfl : said = [] := List.append_right_eq_self.mp h.symm
    cases hk

/-- Whatever the server does, the first refusal ends a call. When the server refuses a statement with an
error, the call fails with the error of exactly that request: the report tells what the request was made
for, the text that was sent, and the code and the message of the server, and nothing else. When it refuses
an attempt to connect with an error, the report tells the target instead, whether the attempt was made for
the version or for a statement. Any other refusal comes out of the call as it is. -/
theorem refusals_come_out (access : Access) (call : Call) (w : World) :
    ∃ added, (call.run access w).2.trace = w.trace ++ added ∧
      (∀ k sent r, (added.filterMap Happening.statement?)[k]? = some sent →
        ((w.server.hears ((added.filterMap Happening.statement?).take k)).answer sent.1 sent.2).1 =
          .error r →
        ∃ q, call.course[k]? = some q ∧ q.sending = sent ∧
          (call.run access w).1 = .error (r.ofStatement q.context q.text)) ∧
      (∀ j r, j < added.countP Happening.isConnect → w.server.connectReplies[j]? = some (some r) →
        (call.run access w).1 = .error (r.ofConnection access.target)) ∧
      (∀ q ∈ call.course, ∀ e,
        (Error.statement q.context q.text e).report = e.ofStatement q.context q.text) ∧
      ∀ e, (Error.connection access.target e).report = e.ofConnection access.target := by
  have hfails {f : Failure} (h : failure? (call.run access w).1 = some f) :
      (call.run access w).1 = .error f := by
    cases hresult : (call.run access w).1 with
    | ok answer => rw [hresult] at h; cases h
    | error g => rw [hresult] at h; rw [Option.some.inj h]
  obtain ⟨added, h⟩ := call.run_exchanges access w
  refine ⟨added, h.trace, fun k sent r hk hr => ?_, fun j r hj hr => hfails (h.connection j r hj hr),
    fun q _ e => Error.report_statement q.context q.text_ne_empty e, Error.report_connection _⟩
  obtain ⟨context, hcontext, hfailure⟩ := h.statement k sent r hk hr
  obtain ⟨q, hq, rfl⟩ := course_of_statements (World.statements_append h.trace) hk
  refine ⟨q, hq, rfl, hfails ?_⟩
  rw [hfailure, hcontext.unique q.describes]
  rfl

/-- The second statement is refused, with an error that has only blanks for a message. -/
example : (failure? ((Call.update "hstore" (Installation.observed "hstore" ⟨"public", "1.7"⟩)
    ⟨"hstore", some "app", some "1.8"⟩).run ⟨.default, none⟩ (.ofServer ⟨.fresh, 160002,
      [.rows [], .refused (.condition ⟨.dataError, " \n"⟩)], []⟩)).1).map
        (fun f => f matches .error (.statement "updating extension version" _ _)) = some true ∧
    (ServerError.ofStatement ⟨.dataError, " \n"⟩ "updating extension version" "").message =
      "Error updating extension version: DataError" := by
  decide +kernel

end Call

end Lifecycle

end CatalogSteward
