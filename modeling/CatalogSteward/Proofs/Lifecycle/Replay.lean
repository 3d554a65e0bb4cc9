import CatalogSteward.Proofs.Lifecycle.Interleaving
import CatalogSteward.Proofs.Lifecycle.Requests

/-!
# Replaying operations on a catalog

What an operation returns and does depends on the catalog and on nothing else that the operations share:
the version gate decides the same for a client every time. So operations that are carried out one after
another can be replayed on the catalog alone.
-/

namespace CatalogSteward.Lifecycle
open Act Client

/-- The result of a call that still has some requests to make, and the catalog afterwards. -/
def Call.resume (call : Call) : Except Failure Reply → List Request → Catalog →
    Except Failure Answer × Catalog
  | .error f, _, c => (.error f, c)
  | .ok reply, qs, c =>
    ((allOnCatalog qs reply c).1.bind fun reply => (call.deliver (call.concluded reply)).mapError .error,
      (allOnCatalog qs reply c).2)

namespace Call

variable {call : Call} {q : Request} {qs : List Request} {c : Catalog}

theorem resume_cons (call : Call) (reply : Reply) (q : Request) (qs : List Request) (c : Catalog) :
    call.resume (.ok reply) (q :: qs) c = call.resume (q.onCatalog c).1 qs (q.onCatalog c).2 := by
  rw [resume, allOnCatalog]
  rcases q.onCatalog c with ⟨f | next, d⟩ <;> rfl

theorem onCatalog_eq_resume (h : call.plan = .ok qs) (hqs : qs ≠ []) (c : Catalog) :
    call.onCatalog (.ok ()) c = call.resume (.ok .nothing) qs c := onCatalog_of_requests h hqs c

/-- The requests of a call that shares the lock only read. -/
theorem plan_shared (h : call.plan = .ok qs) (hmode : call.mode = .shared) :
    ∀ q ∈ qs, ∃ name, q = .find name := by
  have hread (name : String) (hplan : (.ok (if name = "" then [] else [.find name]) :
      Except Error (List Request)) = .ok qs) : ∀ q ∈ qs, ∃ name, q = .find name := by
    obtain rfl := Except.ok.inj hplan
    intro q hq
    split_ifs at hq
    · exact absurd hq List.not_mem_nil
    · exact ⟨name, List.mem_singleton.mp hq⟩
  cases call with
  | read identity => exact hread identity h
  | adopt name => exact hread name h
  | _ => exact absurd hmode (by simp [mode])

/-- Requests that only read leave the catalog as it is. -/
theorem resume_reads (h : ∀ q ∈ qs, ∃ name, q = .find name) (reply : Except Failure Reply) (c : Catalog) :
    (call.resume reply qs c).2 = c := by
  rcases reply with f | reply
  · rfl
  · induction qs generalizing reply with
    | nil => rfl
    | cons q qs ih =>
        obtain ⟨name, rfl⟩ := h q List.mem_cons_self
        rw [resume_cons, Request.onCatalog_find]
        exact ih (fun q hq => h q (List.mem_cons_of_mem _ hq)) _

theorem resume_nil (reply : Except Failure Reply) (c : Catalog) : (call.resume reply [] c).2 = c :=
  resume_reads (by simp) reply c

/-- What is known when everything before the lock has been done. A result at this point is the result that
the call has on any catalog. -/
def Began (call : Call) (gate : Except Failure Unit) (client : Client) :
    Except Failure (Answer ⊕ List Request) → Prop
  | .ok (.inl answer) => ∀ c, call.onCatalog gate c = (.ok answer, c)
  | .ok (.inr qs) => gate = .ok () ∧ call.plan = .ok qs ∧ qs ≠ [] ∧ client.Cleared
  | .error f => ∀ c, call.onCatalog gate c = (.error f, c)

theorem begin_apply (access : Access) (call : Call) {w : World} (hw : w.server.Unscripted) :
    Talk access w w.server.catalog (call.begin access w).2 ∧
      call.Began (w.client.verdict access Gateway.resourceName w.server.version)
        (call.begin access w).2.client (call.begin access w).1 := by
  obtain ⟨u, hprepare, hu, hclient⟩ := call.prepare_apply access hw
  rw [begin]
  cases hgate : w.client.verdict access Gateway.resourceName w.server.version with
  | error f =>
      rw [hgate] at hprepare
      rw [bind_error hprepare]
      exact ⟨hu, fun c => rfl⟩
  | ok _ =>
      rw [hgate] at hprepare
      cases hplan : call.plan with
      | error e =>
          rw [hplan] at hprepare
          rw [bind_error hprepare]
          exact ⟨hu, onCatalog_of_error hplan⟩
      | ok qs =>
          rw [hplan] at hprepare
          rw [bind_ok hprepare]
          by_cases hqs : qs = []
          · subst hqs
            obtain ⟨v, hsettle, hv⟩ := call.settle_apply u
            have htalk := hu.trans (hv access)
            rw [hu.server] at htalk
            rw [if_pos rfl, bind_ok hsettle]
            have hnone := onCatalog_of_nil hplan
            cases hdeliver : call.deliver call.settled with
            | error e =>
                rw [hdeliver] at hnone
                exact ⟨htalk, hnone⟩
            | ok answer =>
                rw [hdeliver] at hnone
                exact ⟨htalk, hnone⟩
          · rw [if_neg hqs]
            exact ⟨hu, rfl, hplan, hqs, hclient hgate⟩

theorem close_apply (access : Access) (call : Call) (reply : Except Failure Reply) (w : World) :
    (call.close reply w).1 = (call.resume reply [] w.server.catalog).1 ∧
      Talk access w w.server.catalog (call.close reply w).2 := by
  rw [close]
  cases reply with
  | error f => exact ⟨rfl, .refl access w⟩
  | ok reply =>
      obtain ⟨u, hconclude, hu⟩ := call.conclude_apply reply w
      have happly : (do
          let answer ← call.conclude (← liftM (.ok reply : Except Failure Reply))
          checked (call.deliver answer)) w =
            ((call.deliver (call.concluded reply)).mapError .error, u) := by
        rw [bind_ok (liftM_apply (.ok reply) w), bind_ok hconclude, deliver_apply]
      rw [happly]
      exact ⟨rfl, hu access⟩

end Call

/-! ### Replaying -/

/-- The results of operations that are carried out one after another on a catalog, and the catalog
afterwards; `gate` is what the version gate decides for each client. -/
def Program.replay (P : Program) (gate : Nat → Except Failure Unit) :
    List Op → Catalog → List (Option Result) × Catalog
  | [], c => ([], c)
  | o :: os, c =>
    match P.job? o with
    | none => (none :: (P.replay gate os c).1, (P.replay gate os c).2)
    | some job =>
      let (result, d) := job.call.onCatalog (gate job.client) c
      (some result :: (P.replay gate os d).1, (P.replay gate os d).2)

section
variable {P : Program} {gate : Nat → Except Failure Unit}

theorem replay_append (os ps : List Op) (c : Catalog) :
    P.replay gate (os ++ ps) c =
      ((P.replay gate os c).1 ++ (P.replay gate ps (P.replay gate os c).2).1,
        (P.replay gate ps (P.replay gate os c).2).2) := by
  induction os generalizing c with
  | nil => rfl
  | cons o os ih =>
      rw [List.cons_append, Program.replay, Program.replay]
      cases P.job? o with
      | none => simp only [ih, List.cons_append]
      | some job => simp only [ih, List.cons_append]

/-- An operation that has a result whatever the catalog is, and does nothing to it. -/
def Program.Idle (P : Program) (gate : Nat → Except Failure Unit) (o : Op) (result : Result) : Prop :=
  ∃ job, P.job? o = some job ∧ ∀ c, job.call.onCatalog (gate job.client) c = (result, c)

/-- Operations that do nothing to the catalog may be carried out at any time. -/
theorem replay_filter {p : Op → Bool} {f : Op → Option Result} {os : List Op} {c : Catalog}
    (hf : (P.replay gate (os.filter p) c).1 = (os.filter p).map f)
    (hidle : ∀ o ∈ os, p o = false → ∃ result, f o = some result ∧ P.Idle gate o result) :
    P.replay gate os c = (os.map f, (P.replay gate (os.filter p) c).2) := by
  -- by induction on all the operations; an idle one takes the catalog on as it is
  induction os generalizing c with
  | nil => rfl
  | cons o os ih =>
      have hrest (o' : Op) (ho' : o' ∈ os) := hidle o' (List.mem_cons_of_mem o ho')
      rw [Program.replay]
      cases hp : p o with
      | false =>
          obtain ⟨result, hresult, job, hjob, honCatalog⟩ := hidle o List.mem_cons_self hp
          rw [List.filter_cons_of_neg (by simp [hp])] at hf ⊢
          simp only [hjob, honCatalog, ih hf hrest, List.map_cons, hresult]
      | true =>
          rw [List.filter_cons_of_pos hp, Program.replay, List.map_cons] at hf
          rw [List.filter_cons_of_pos hp, Program.replay, List.map_cons]
          cases hjob : P.job? o with
          | none =>
              simp only [hjob] at hf
              obtain ⟨hnone, hf⟩ := List.cons.inj hf
              simp only [ih hf hrest, hnone]
          | some job =>
              simp only [hjob] at hf
              obtain ⟨hsome, hf⟩ := List.cons.inj hf
              simp only [ih hf hrest, hsome]

end

/-! ### Operations on the world -/

/-- A world in which nothing but the catalog counts: `gate` is what the version gate decides for each
client, and will decide whenever it is asked again. -/
structure Shared.Steady (s : Shared) (P : Program) (version : Int) (gate : Nat → Except Failure Unit) :
    Prop where
  unscripted : s.world.server.Unscripted
  sameVersion : s.world.server.version = version
  sameGate : ∀ n, (s.clients n).verdict (P.access n) Gateway.resourceName version = gate n

section
variable {P : Program} {version : Int} {gate : Nat → Except Failure Unit} {s : Shared} {α : Type}

theorem Shared.Steady.run (hs : s.Steady P version gate) {n : Nat} {a : Act α} {r : Except Failure α}
    {u : World} {c : Catalog} (ha : a (s.view n) = (r, u))
    (htalk : Talk (P.access n) (s.view n) c { u with locks := s.world.locks }) :
    ∃ v, s.run n a = (r, v) ∧ v.Steady P version gate ∧ v.world = u ∧ v.clients n = u.client ∧
      v.world.server.catalog = c ∧ ∀ m, (s.clients m).Cleared → (v.clients m).Cleared := by
  have hserver : u.server = { s.world.server with catalog := c } := htalk.server
  refine ⟨⟨u, Function.update s.clients n u.client⟩, by rw [Shared.run, ha], ⟨?_, ?_, fun m => ?_⟩, rfl,
    Function.update_self .., by rw [hserver], fun m hm => ?_⟩
  all_goals dsimp only
  · rw [hserver]
    exact ⟨hs.unscripted.replies, hs.unscripted.connectReplies⟩
  · rw [hserver]
    exact hs.sameVersion
  · by_cases hm : m = n
    · subst hm
      have hsame := htalk.version
      rw [Shared.server_view, hs.sameVersion] at hsame
      rw [Function.update_self, verdict, hsame]
      exact hs.sameGate m
    · rw [Function.update_of_ne hm]
      exact hs.sameGate m
  · by_cases hmn : m = n
    · subst hmn
      rw [Function.update_self]
      exact htalk.cleared hm
    · rwa [Function.update_of_ne hmn]

/-- Carrying out operations one after another is replaying them on the catalog. -/
theorem serially_replay {key : String} (hkey : ∀ n, (P.access n).target = key) (os : List Op)
    (hs : s.Steady P version gate) (hlock : (s.world.locks.lock key).IsFree) :
    (serially P os s).1 = (P.replay gate os s.world.server.catalog).1 ∧
      (serially P os s).2.world.server.catalog = (P.replay gate os s.world.server.catalog).2 := by
  induction os generalizing s with
  | nil => exact ⟨rfl, rfl⟩
  | cons o os ih =>
      rw [serially, Program.replay]
      cases P.job? o with
      | none =>
          obtain ⟨hresults, hcatalog⟩ := ih hs hlock
          exact ⟨congrArg (none :: ·) hresults, hcatalog⟩
      | some job =>
          have hadmits :
              (s.world.locks.lock (P.access job.client).target).admits job.call.mode = true := by
            rw [hkey]
            exact hlock.admits _
          obtain ⟨u, hcall, hran, -⟩ := job.call.run_apply (P.access job.client)
            (w := s.view job.client) hs.unscripted fun _ _ _ => hadmits
          rw [Shared.server_view, Shared.client_view, hs.sameVersion, hs.sameGate] at hcall hran
          obtain ⟨v, hrun, hv, rfl, -, hcatalog, -⟩ := hs.run hcall hran.talk
          have hlock' := hran.lock
          rw [hkey] at hlock'
          -- the lock is free again, so the next operation is admitted too
          obtain ⟨hresults, hlast⟩ := ih hv (by rw [hlock']; exact hlock)
          rw [hcatalog] at hresults hlast
          dsimp only
          rw [hrun]
          exact ⟨congrArg (some _ :: ·) hresults, hlast⟩

end

end CatalogSteward.Lifecycle
