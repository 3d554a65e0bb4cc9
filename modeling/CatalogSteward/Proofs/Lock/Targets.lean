import CatalogSteward.Lock.Registry
import CatalogSteward.Proofs.Decimal
import CatalogSteward.Settings.Reader
import Mathlib.Data.List.Basic

/-!
# Locks and databases

A process has one lock under every key, and keeps it whatever else happens to its locks. The key of a database
is put together of a host, a port and a name, with a colon and a slash in between. A host that is a path may have
both in it, and so may a name. So two databases have the same lock if they are the same, and else exactly if the
key can be cut in both ways: the host of the one starts with host and port of the other, and the name of the other
ends with port and name of the one.
-/

namespace CatalogSteward

/-! ### Keys -/

namespace Connection

/-- The same database of the same server. -/
def SameTarget (a b : Connection) : Prop := a.host = b.host ∧ a.port = b.port ∧ a.database = b.database

/-- The key of a database, cut at a later colon, is that of another one. -/
def Entangled (a b : Connection) : Prop :=
  ∃ part, b.host = a.host ++ ":" ++ Decimal.text a.port ++ "/" ++ part ∧
    a.database = part ++ ":" ++ Decimal.text b.port ++ "/" ++ b.database

theorem toList_target (c : Connection) :
    c.target.toList = c.host.toList ++ ':' :: (Decimal.chars c.port ++ '/' :: c.database.toList) := by
  simp [target, Decimal.text]

theorem ne_of_mem_port {n : Int} {c : Char} (h : c ∈ Decimal.chars n) : c ≠ ':' ∧ c ≠ '/' := by
  obtain hdigit | rfl := Decimal.mem_chars h
  · exact ⟨hdigit.ne (by decide), hdigit.ne (by decide)⟩
  · decide

/-- Two texts are cut in the same way at the first of their slashes. -/
theorem append_slash_inj {p q r s : List Char} (hp : '/' ∉ p) (hq : '/' ∉ q) (h : p ++ '/' :: r = q ++ '/' :: s) :
    p = q ∧ r = s := by
  -- a longer beginning would go on with the slash
  have hshort {p x r s : List Char} (hq : '/' ∉ p ++ x) (h : '/' :: r = x ++ '/' :: s) : x = [] := by
    cases x with
    | nil => rfl
    | cons c x =>
        obtain ⟨rfl, -⟩ := List.cons.inj h
        exact absurd (List.mem_append_right p List.mem_cons_self) hq
  obtain ⟨x, rfl, hx⟩ | ⟨x, rfl, hx⟩ := List.append_eq_append_iff.mp h
  · obtain rfl := hshort hq hx
    exact ⟨(List.append_nil p).symm, (List.cons.inj hx).2⟩
  · obtain rfl := hshort hp hx
    exact ⟨List.append_nil q, (List.cons.inj hx).2.symm⟩

/-- A key that can be cut in two ways, the host of the one being the beginning of that of the other. -/
theorem cut_twice {host host' port port' name name' : List Char} (hport : ∀ c ∈ port, c ≠ ':' ∧ c ≠ '/')
    (hport' : ∀ c ∈ port', c ≠ ':' ∧ c ≠ '/') (hhost : host <+: host')
    (h : host ++ ':' :: (port ++ '/' :: name) = host' ++ ':' :: (port' ++ '/' :: name')) :
    (host = host' ∧ port = port' ∧ name = name') ∨
      ∃ part, host' = host ++ ':' :: (port ++ '/' :: part) ∧ name = part ++ ':' :: (port' ++ '/' :: name') := by
  obtain ⟨more, rfl⟩ := hhost
  rw [List.append_assoc, List.append_cancel_left_eq] at h
  cases more with
  | nil =>
      obtain ⟨hsame, hname⟩ := append_slash_inj (fun hc => (hport _ hc).2 rfl) (fun hc => (hport' _ hc).2 rfl)
        (List.cons.inj h).2
      exact .inl ⟨(List.append_nil host).symm, hsame, hname⟩
  | cons c more =>
      obtain ⟨rfl, hrest⟩ := List.cons.inj h
      -- the second colon is not in the port, so that it is behind the slash
      obtain ⟨part, rfl, hpart⟩ | ⟨part, rfl, hpart⟩ := List.append_eq_append_iff.mp hrest
      · cases part with
        | nil => exact absurd (List.cons.inj hpart).1 (by decide)
        | cons c part =>
            obtain ⟨rfl, hname⟩ := List.cons.inj hpart
            exact .inr ⟨part, rfl, hname⟩
      · cases part with
        | nil => exact absurd (List.cons.inj hpart).1 (by decide)
        | cons c part =>
            obtain ⟨rfl, -⟩ := List.cons.inj hpart
            exact absurd rfl (hport _ (List.mem_append_right _ List.mem_cons_self)).1

variable {a b : Connection}

theorem target_eq_of_entangled (h : a.Entangled b) : a.target = b.target := by
  obtain ⟨part, hhost, hdatabase⟩ := h
  simp only [target, hhost, hdatabase, String.append_assoc]

theorem entangled_iff : a.Entangled b ↔ ∃ part,
    b.host.toList = a.host.toList ++ ':' :: (Decimal.chars a.port ++ '/' :: part) ∧
      a.database.toList = part ++ ':' :: (Decimal.chars b.port ++ '/' :: b.database.toList) := by
  constructor
  · rintro ⟨part, hhost, hdatabase⟩
    exact ⟨part.toList, by simp [hhost, Decimal.text], by simp [hdatabase, Decimal.text]⟩
  · rintro ⟨part, hhost, hdatabase⟩
    exact ⟨String.ofList part, String.toList_injective (by simp [hhost, Decimal.text]),
      String.toList_injective (by simp [hdatabase, Decimal.text])⟩

/-- Two keys are equal if the databases are the same, and else exactly if the key can be cut in both ways. -/
theorem target_eq_iff : a.target = b.target ↔ a.SameTarget b ∨ a.Entangled b ∨ b.Entangled a := by
  have hcut {a b : Connection} (h : a.target = b.target) (hhost : a.host.toList <+: b.host.toList) :
      a.SameTarget b ∨ a.Entangled b := by
    have hlists := congrArg String.toList h
    rw [toList_target, toList_target] at hlists
    obtain ⟨hhost, hport, hdatabase⟩ | hpart :=
      cut_twice (fun _ => ne_of_mem_port) (fun _ => ne_of_mem_port) hhost hlists
    · exact .inl ⟨String.toList_injective hhost, Decimal.chars_injective hport, String.toList_injective hdatabase⟩
    · exact .inr (entangled_iff.mpr hpart)
  constructor
  · intro h
    have hhosts : a.host.toList <+: b.host.toList ∨ b.host.toList <+: a.host.toList := by
      have ha : a.host.toList <+: a.target.toList := ⟨_, a.toList_target.symm⟩
      have hb : b.host.toList <+: a.target.toList := ⟨_, h ▸ b.toList_target.symm⟩
      exact List.prefix_or_prefix_of_prefix ha hb
    obtain hhost | hhost := hhosts
    · obtain hsame | hentangled := hcut h hhost
      · exact .inl hsame
      · exact .inr (.inl hentangled)
    · obtain ⟨hhost, hport, hdatabase⟩ | hentangled := hcut h.symm hhost
      · exact .inl ⟨hhost.symm, hport.symm, hdatabase.symm⟩
      · exact .inr (.inr hentangled)
  · rintro (⟨hhost, hport, hdatabase⟩ | hentangled | hentangled)
    · rw [target, target, hhost, hport, hdatabase]
    · exact target_eq_of_entangled hentangled
    · exact (target_eq_of_entangled hentangled).symm

theorem not_entangled_of_host (h : '/' ∉ b.host.toList) : ¬a.Entangled b := by
  intro hentangled
  obtain ⟨part, hhost, -⟩ := entangled_iff.mp hentangled
  exact h (by simp [hhost])

end Connection

/-! ### Locks -/

namespace LockRegistry

/-- What happens to the locks of a process: the lock under a key is asked for, or changes its state. -/
inductive Use where
  | lookup (key : String)
  | change (key : String) (l : Lock)

def use (r : LockRegistry) : Use → LockRegistry
  | .lookup key => r.ensure key
  | .change key l => r.put key l

def after (r : LockRegistry) (uses : List Use) : LockRegistry := uses.foldl use r

def keys (r : LockRegistry) : List String := r.map (·.1)

variable {r : LockRegistry} {key other : String}

theorem position_eq (r : LockRegistry) (key : String) : r.position key = r.keys.idxOf key := by
  rw [keys, List.idxOf, List.findIdx_map]
  rfl

theorem mem_keys_ensure (r : LockRegistry) (key : String) : key ∈ (r.ensure key).keys := by
  unfold ensure
  split
  · next h => simpa [keys] using h
  · simp [keys]

/-- A new key comes last. -/
theorem keys_ensure (r : LockRegistry) (key : String) : r.keys <+: (r.ensure key).keys := by
  unfold ensure
  split
  · exact List.prefix_rfl
  · rw [keys, keys, List.map_append]
    exact List.prefix_append ..

theorem keys_put (r : LockRegistry) (key : String) (l : Lock) : (r.put key l).keys = r.keys := by
  rw [keys, keys, put, List.map_map]
  refine List.map_congr_left fun e _ => ?_
  by_cases h : e.1 = key <;> simp [h]

theorem keys_after (r : LockRegistry) (uses : List Use) : r.keys <+: (r.after uses).keys := by
  induction uses generalizing r with
  | nil => exact List.prefix_rfl
  | cons u uses ih =>
      have hstep : r.keys <+: (r.use u).keys := by
        cases u with
        | lookup key => exact r.keys_ensure key
        | change key l => exact (r.keys_put key l).symm ▸ List.prefix_rfl
      exact hstep.trans (ih (r.use u))

/-- A lock keeps its place. -/
theorem position_of_keys {s : LockRegistry} (h : r.keys <+: s.keys) (hkey : key ∈ r.keys) :
    s.position key = r.position key := by
  rw [position_eq, position_eq, h.idxOf_eq_of_mem hkey]

theorem position_lt (h : key ∈ r.keys) : r.position key < r.length := by
  have hlt := List.idxOf_lt_length_of_mem h
  rwa [keys, List.length_map, ← keys, ← position_eq] at hlt

theorem position_inj (h : key ∈ r.keys) : r.position key = r.position other ↔ key = other := by
  rw [position_eq, position_eq, List.idxOf_inj h]

end LockRegistry

open LockRegistry

/-- Whatever happens to the locks of a process before two databases are asked for, and in between, they get the
same lock exactly if they are the same database or entangled. Where no host has a slash in it, the lock of a
database is its own. The lock that was handed out stays the same. -/
theorem locks_are_shared_by_entangled_targets (a b : Connection) (before between later : List Use) :
    let first := (LockRegistry.after [] before).ensure a.target
    let second := (first.after between).ensure b.target
    (first.position a.target = second.position b.target ↔ a.SameTarget b ∨ a.Entangled b ∨ b.Entangled a) ∧
      ('/' ∉ a.host.toList → '/' ∉ b.host.toList →
        (first.position a.target = second.position b.target ↔ a.SameTarget b)) ∧
      first.position a.target < first.length ∧
      (second.after later).position a.target = first.position a.target := by
  intro first second
  have hfirst : a.target ∈ first.keys := mem_keys_ensure ..
  have hgrows : first.keys <+: second.keys := (first.keys_after between).trans (keys_ensure ..)
  have hkept : second.position a.target = first.position a.target := position_of_keys hgrows hfirst
  have hsecond : a.target ∈ second.keys := hgrows.subset hfirst
  have hshared : first.position a.target = second.position b.target ↔
      a.SameTarget b ∨ a.Entangled b ∨ b.Entangled a := by
    rw [← hkept, position_inj hsecond]
    exact Connection.target_eq_iff
  refine ⟨hshared, fun ha hb => ?_, position_lt hfirst, ?_⟩
  · rw [hshared]
    constructor
    · rintro (hsame | hentangled | hentangled)
      · exact hsame
      · exact absurd hentangled (Connection.not_entangled_of_host hb)
      · exact absurd hentangled (Connection.not_entangled_of_host ha)
    · exact .inl
  · rw [position_of_keys (second.keys_after later) hsecond, hkept]

/-- Two databases of two servers, both accepted, of which one is looked for under a path. -/
theorem two_databases_share_a_lock :
    ∃ s t : Settings,
      Settings.ofValue (.mapping [(.text "postgres", .mapping
        [(.text "host", .text "/tmp"), (.text "database", .text "a:5432/b")])]) = .ok s ∧
      Settings.ofValue (.mapping [(.text "postgres", .mapping
        [(.text "host", .text "/tmp:5432/a"), (.text "database", .text "b")])]) = .ok t ∧
      ¬s.connection.SameTarget t.connection ∧
      let first := LockRegistry.ensure [] s.connection.target
      first.position s.connection.target = (first.ensure t.connection.target).position t.connection.target :=
  ⟨_, _, rfl, rfl, fun h => absurd h.1 (by decide), by decide +kernel⟩

end CatalogSteward
