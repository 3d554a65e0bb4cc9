import CatalogSteward.Audit.Event

/-!
# What redaction hides

Two trees are redacted alike exactly if they differ in nothing but the values under secret keys. What
redaction leaves of a tree differs from the tree in such values alone, so that all keys, the lengths of
lists and the other values are kept, each in its place. Nothing of a secret gets into a record, not even
what kind of value it was.
-/

namespace CatalogSteward.Redaction

/-! ### Secret keys -/

/-- A key whose text in lower case has one of the markers in it. -/
def IsSecret (key : String) : Prop := ∃ marker ∈ markers, marker.toList <:+: (Text.lower key).toList

theorem occursIn_iff {word cs : List Char} : occursIn word cs = true ↔ word <:+: cs := by
  induction cs with
  | nil => rw [occursIn, List.isEmpty_iff, List.infix_nil]
  | cons c cs ih => rw [occursIn, Bool.or_eq_true, ih, List.isPrefixOf_iff_prefix, List.infix_cons_iff]

theorem isSensitive_iff {key : String} : isSensitive key = true ↔ IsSecret key := by
  simp only [isSensitive, List.any_eq_true, occursIn_iff, IsSecret]

/-! ### Trees that differ in secrets -/

mutual

/-- Two trees that are equal except for values under secret keys, at any depth. -/
inductive Alike : Json → Json → Prop where
  | refl (j : Json) : Alike j j
  | list {js ks : List Json} (h : AlikeItems js ks) : Alike (.list js) (.list ks)
  | object {fs gs : List (String × Json)} (h : AlikeFields fs gs) : Alike (.object fs) (.object gs)

inductive AlikeItems : List Json → List Json → Prop where
  | nil : AlikeItems [] []
  | cons {j k : Json} {js ks : List Json} (h : Alike j k) (rest : AlikeItems js ks) :
      AlikeItems (j :: js) (k :: ks)

/-- The same keys in the same order; under a secret one there may be any two values. -/
inductive AlikeFields : List (String × Json) → List (String × Json) → Prop where
  | nil : AlikeFields [] []
  | secret {key : String} {j k : Json} {fs gs : List (String × Json)} (h : IsSecret key)
      (rest : AlikeFields fs gs) : AlikeFields ((key, j) :: fs) ((key, k) :: gs)
  | plain {key : String} {j k : Json} {fs gs : List (String × Json)} (h : Alike j k)
      (rest : AlikeFields fs gs) : AlikeFields ((key, j) :: fs) ((key, k) :: gs)

end

mutual

theorem Alike.redact_eq : ∀ {j k : Json}, Alike j k → redact j = redact k
  | _, _, .refl _ => rfl
  | _, _, .list h => by rw [redact, redact, h.redact_eq]
  | _, _, .object h => by rw [redact, redact, h.redact_eq]

theorem AlikeItems.redact_eq : ∀ {js ks : List Json}, AlikeItems js ks → redactItems js = redactItems ks
  | _, _, .nil => rfl
  | _, _, .cons h rest => by rw [redactItems, redactItems, h.redact_eq, rest.redact_eq]

theorem AlikeFields.redact_eq :
    ∀ {fs gs : List (String × Json)}, AlikeFields fs gs → redactFields fs = redactFields gs
  | _, _, .nil => rfl
  | _, _, .secret h rest => by
      rw [redactFields, redactFields, if_pos (isSensitive_iff.mpr h), if_pos (isSensitive_iff.mpr h),
        rest.redact_eq]
  | _, _, .plain h rest => by rw [redactFields, redactFields, h.redact_eq, rest.redact_eq]

end

mutual

/-- A tree and what redaction leaves of it. -/
theorem alike_redact : ∀ j : Json, Alike j (redact j)
  | .list js => by rw [redact]; exact .list (alikeItems_redact js)
  | .object fs => by rw [redact]; exact .object (alikeFields_redact fs)
  | .null => .refl _
  | .bool _ => .refl _
  | .int _ => .refl _
  | .real _ => .refl _
  | .str _ => .refl _

theorem alikeItems_redact : ∀ js : List Json, AlikeItems js (redactItems js)
  | [] => .nil
  | j :: js => .cons (alike_redact j) (alikeItems_redact js)

theorem alikeFields_redact : ∀ fs : List (String × Json), AlikeFields fs (redactFields fs)
  | [] => .nil
  | (key, j) :: fs => by
      rw [redactFields]
      split
      · next h => exact .secret (isSensitive_iff.mp h) (alikeFields_redact fs)
      · exact .plain (alike_redact j) (alikeFields_redact fs)

end

theorem list_of_redact {k : Json} {js : List Json} (h : redact k = .list js) :
    ∃ ks, k = .list ks ∧ redactItems ks = js := by
  cases k with
  | list ks => exact ⟨ks, rfl, Json.list.inj h⟩
  | _ => cases h

theorem object_of_redact {k : Json} {fs : List (String × Json)} (h : redact k = .object fs) :
    ∃ gs, k = .object gs ∧ redactFields gs = fs := by
  cases k with
  | object gs => exact ⟨gs, rfl, Json.object.inj h⟩
  | _ => cases h

/-- What is neither a list nor an object is redacted from itself alone. -/
theorem leaf_of_redact {j k : Json} (hlist : ∀ js, j ≠ .list js) (hobject : ∀ fs, j ≠ .object fs)
    (h : j = redact k) : Alike j k := by
  cases k with
  | list ks => exact absurd h (hlist _)
  | object gs => exact absurd h (hobject _)
  | _ => exact h ▸ .refl _

mutual

theorem alike_of_redact : ∀ (j : Json) {k : Json}, redact j = redact k → Alike j k
  | .list js, k, h => by
      obtain ⟨ks, rfl, hitems⟩ := list_of_redact h.symm
      exact .list (alikeItems_of_redact js hitems.symm)
  | .object fs, k, h => by
      obtain ⟨gs, rfl, hfields⟩ := object_of_redact h.symm
      exact .object (alikeFields_of_redact fs hfields.symm)
  | .null, _, h => leaf_of_redact nofun nofun h
  | .bool _, _, h => leaf_of_redact nofun nofun h
  | .int _, _, h => leaf_of_redact nofun nofun h
  | .real _, _, h => leaf_of_redact nofun nofun h
  | .str _, _, h => leaf_of_redact nofun nofun h

theorem alikeItems_of_redact :
    ∀ (js : List Json) {ks : List Json}, redactItems js = redactItems ks → AlikeItems js ks
  | [], [], _ => .nil
  | j :: js, k :: ks, h => by
      obtain ⟨hfirst, hrest⟩ := List.cons.inj h
      exact .cons (alike_of_redact j hfirst) (alikeItems_of_redact js hrest)

theorem alikeFields_of_redact :
    ∀ (fs : List (String × Json)) {gs : List (String × Json)}, redactFields fs = redactFields gs →
      AlikeFields fs gs
  | [], [], _ => .nil
  | (key, j) :: fs, (other, k) :: gs, h => by
      rw [redactFields, redactFields] at h
      obtain ⟨hfirst, hrest⟩ := List.cons.inj h
      obtain ⟨rfl, hvalue⟩ := Prod.mk.inj hfirst
      have hfields := alikeFields_of_redact fs hrest
      by_cases hkey : isSensitive key = true
      · exact .secret (isSensitive_iff.mp hkey) hfields
      · rw [if_neg hkey, if_neg hkey] at hvalue
        exact .plain (alike_of_redact j hvalue) hfields

end

/-- Exactly the trees that differ in nothing but values under secret keys are redacted alike, and what is
left of a tree differs from it in nothing else; to redact it once more changes nothing. So the records of
two events whose parameters differ in secrets are the same text. -/
theorem redaction_hides_secrets_alone :
    (∀ j k, redact j = redact k ↔ Alike j k) ∧
    (∀ j, Alike j (redact j)) ∧
    (∀ j, redact (redact j) = redact j) ∧
    ∀ (e : AuditEvent) (actor : Actor) (j k : Json), Alike j k →
      ({ e with parameters := j }).text actor = ({ e with parameters := k }).text actor := by
  refine ⟨fun j k => ⟨alike_of_redact j, Alike.redact_eq⟩, alike_redact, fun j => ?_, ?_⟩
  · exact (alike_redact j).redact_eq.symm
  · intro e actor j k h
    simp only [AuditEvent.text, AuditEvent.toJson, h.redact_eq]

/-- A secret in a list under a key that is none, and one that is a tree of its own. -/
def account (token credentials : Json) : Json := .object
  [("users", .list [.object [("API_Token", token), ("name", .str "horse")], .str "token"]),
    ("Credentials", credentials)]

theorem redaction_hides_secrets_alone_nested :
    Alike (account (.str "battery") (.list [.object [("port", .int 5432)]])) (account .null (.str "")) ∧
      redact (account (.str "battery") (.list [.object [("port", .int 5432)]])) =
        account replacement replacement ∧
      redact (account replacement replacement) = account replacement replacement := by
  have htoken : isSensitive "API_Token" = true := by decide +kernel
  have hcredentials : isSensitive "Credentials" = true := by decide +kernel
  have husers : isSensitive "users" = false := by decide +kernel
  have hname : isSensitive "name" = false := by decide +kernel
  have halike (token credentials other another : Json) :
      Alike (account token credentials) (account other another) :=
    .object (.plain
      (.list (.cons (.object (.secret (isSensitive_iff.mp htoken) (.plain (.refl _) .nil)))
        (.cons (.refl _) .nil)))
      (.secret (isSensitive_iff.mp hcredentials) .nil))
  have hhidden : redact (account .null .null) = account replacement replacement := by
    simp [account, redact, redactFields, redactItems, htoken, hcredentials, husers, hname]
  obtain ⟨hsame, -, hagain, -⟩ := redaction_hides_secrets_alone
  refine ⟨halike .., ?_, ?_⟩
  · exact ((hsame _ _).mpr (halike ..)).trans hhidden
  · have htwice := hagain (account .null .null)
    rwa [hhidden] at htwice

end CatalogSteward.Redaction
