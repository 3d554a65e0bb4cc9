import CatalogSteward.Proofs.Lifecycle.Effects
import CatalogSteward.Proofs.Lifecycle.Interleaving

/-!
# What calls make visible

A call sends statements to the server only while it holds the lock. What comes before the lock may open a
connection, and what comes after the last request may print a line, but neither sends a statement. Nothing
that has become visible is ever taken back.
-/

namespace CatalogSteward
open Act

def Happening.isStatement : Happening → Bool
  | .sql _ _ => true
  | _ => false

/-- An operation that sends no statement. -/
abbrev Act.Silent {α : Type} (a : Act α) : Prop := Emits (fun h => h.isStatement = false) a

namespace Client

section
variable {kind : Happening → Prop} (hline : ∀ toErrors markup, kind (.line toErrors markup))
  (hconnect : ∀ parameters, kind (.connect parameters)) (access : Access)
include hline hconnect

theorem connection_emits : Emits kind (connection access) := by
  refine .get_bind fun w => ?_
  split
  · exact .of_trace fun _ => rfl
  · refine .bind (.say hline _ _) fun _ => ?_
    refine .bind (.happen (hconnect _)) fun _ => ?_
    refine .get_bind fun w => ?_
    refine .bind (.of_trace fun _ => rfl) fun _ => ?_
    split
    · exact .of_trace fun _ => rfl
    · exact .of_trace fun _ => rfl
    · exact .bind (.of_trace fun _ => rfl) fun _ => .of_trace fun _ => rfl
    · exact .bind (.of_trace fun _ => rfl) fun _ => .of_trace fun _ => rfl

theorem requireExtensions_emits (resource : String) : Emits kind (requireExtensions access resource) := by
  have hlearn (n : Int) : Emits kind (do
      modify fun w => { w with client := { w.client with knownVersion := some n } }
      return n : Act Int) := .of_trace fun _ => rfl
  have hversion : Emits kind (serverVersion access) := by
    refine .get_bind fun w => ?_
    split
    · exact .of_trace fun _ => rfl
    · split
      · split
        · exact .bind (.of_trace fun _ => rfl) hlearn
        · exact .bind (.of_trace fun _ => rfl) hlearn
        · exact .bind (.of_trace fun _ => rfl) hlearn
      · refine .bind (connection_emits hline hconnect access) fun link => ?_
        exact .bind (.of_trace fun _ => rfl) hlearn
  refine hversion.bind fun n => ?_
  split
  · exact .of_trace fun _ => rfl
  · exact .of_trace fun _ => rfl

theorem send_emits (hsql : ∀ text parameters, kind (.sql text parameters)) (context text : String)
    (parameters : Option (List Json)) : Emits kind (send access context text parameters) := by
  refine .bind (.say hline _ _) fun _ => ?_
  refine .bind (connection_emits hline hconnect access) fun _ => ?_
  refine .bind (.happen (hsql _ _)) fun _ => ?_
  refine .get_bind fun w => ?_
  refine .bind (.of_trace fun _ => rfl) fun _ => ?_
  split <;> exact .of_trace fun _ => rfl

end

theorem connection_silent (access : Access) : Silent (connection access) :=
  connection_emits (fun _ _ => rfl) (fun _ => rfl) access

theorem requireExtensions_silent (access : Access) (resource : String) :
    Silent (requireExtensions access resource) :=
  requireExtensions_emits (fun _ _ => rfl) (fun _ => rfl) access resource

end Client

namespace Lifecycle

namespace Call

section
variable {kind : Happening → Prop} (hline : ∀ toErrors markup, kind (.line toErrors markup))
include hline

theorem settle_emits (call : Call) : Emits kind call.settle := by
  cases call with
  | update identity previous desired => exact .bind (.say hline _ _) fun _ => .of_trace fun _ => rfl
  | _ => exact .of_trace fun _ => rfl

theorem conclude_emits (call : Call) (reply : Reply) : Emits kind (call.conclude reply) := by
  have hnoted (identity : String) (g : Option Observed → Answer) :
      Emits kind (do return g (← noted identity reply.found)) := by
    refine .bind ?_ fun _ => .of_trace fun _ => rfl
    cases reply.found with
    | none => exact .bind (.say hline _ _) fun _ => .of_trace fun _ => rfl
    | some o => exact .of_trace fun _ => rfl
  cases call with
  | create desired => exact hnoted desired.name .observed
  | read identity => exact hnoted identity .observed
  | adopt name => exact hnoted name .observed
  | update identity previous desired => exact hnoted identity fun o => .updated (.readBack o)
  | installed identity => exact .of_trace fun _ => rfl
  | delete identity => exact .of_trace fun _ => rfl

end

theorem settle_silent (call : Call) : Silent call.settle := call.settle_emits fun _ _ => rfl

theorem conclude_silent (call : Call) (reply : Reply) : Silent (call.conclude reply) :=
  call.conclude_emits (fun _ _ => rfl) reply

theorem begin_silent (access : Access) (call : Call) : Silent (call.begin access) := by
  refine .bind (.bind (Client.requireExtensions_silent access _) fun _ => .checked _) fun qs => ?_
  split
  · refine .bind call.settle_silent fun answer => ?_
    exact .bind (.checked _) fun _ => .of_trace fun _ => rfl
  · exact .of_trace fun _ => rfl

theorem close_silent (call : Call) (reply : Except Failure Reply) : Silent (call.close reply) := by
  refine .bind (.of_trace fun _ => rfl) fun reply => ?_
  exact .bind (call.conclude_silent reply) fun _ => .checked _

end Call

section
variable {kind : Happening → Prop} (hline : ∀ toErrors markup, kind (.line toErrors markup))
  (hconnect : ∀ parameters, kind (.connect parameters)) (hsql : ∀ text parameters, kind (.sql text parameters))
  (access : Access)
include hline hconnect hsql

theorem Request.perform_emits (q : Request) : Emits kind (q.perform access) := by
  have hsay (message : String) : Emits kind (say .step message) := .say hline .step message
  rw [perform_eq]
  refine .bind ?_ fun _ => ?_
  · cases q with
    | create d => exact .bind (Client.requireExtensions_emits hline hconnect access _) fun _ => hsay _
    | relocate name schema => exact .bind (.checked _) fun _ => hsay _
    | reversion name version => exact hsay _
    | drop name => exact hsay _
    | find name => exact .of_trace fun _ => rfl
    | has name => exact .of_trace fun _ => rfl
  · exact .bind (Client.send_emits hline hconnect access hsql _ _ _) fun _ => .of_trace fun _ => rfl

theorem Call.body_emits (call : Call) (qs : List Request) : Emits kind (call.body access qs) := by
  have hall (reply : Reply) : Emits kind (performAll access qs reply) := by
    induction qs generalizing reply with
    | nil => exact .of_trace fun _ => rfl
    | cons q qs ih => exact .bind (q.perform_emits hline hconnect hsql access) ih
  exact .bind (hall _) fun reply => call.conclude_emits hline reply

end

end Lifecycle

end CatalogSteward
