import CatalogSteward.Json.Reader
import CatalogSteward.Json.Writer
import CatalogSteward.Proofs.Hex

/-!
# Strings between quotes are read back

A character is written as itself, by a letter behind a backslash, or by the code of its one or two units
of sixteen bits. Whatever is written is printable ASCII.
-/

namespace CatalogSteward.Json

/-- A character of printable ASCII. -/
def IsPlain (c : Char) : Prop := 0x20 ≤ c.toNat ∧ c.toNat ≤ 0x7E

instance (c : Char) : Decidable (IsPlain c) := inferInstanceAs (Decidable (_ ∧ _))

theorem IsPlain.isLineBreak {c : Char} (h : IsPlain c) : Text.isLineBreak c = false := by
  obtain ⟨low, high⟩ := h
  simp only [Text.isLineBreak, Bool.or_eq_false_iff, Bool.and_eq_false_iff, decide_eq_false_iff_not,
    beq_eq_false_iff_ne]
  omega

/-! ### Escapes -/

/-- The two units of a character beyond U+FFFF. -/
def highUnit (c : Char) : Nat := 0xD800 + (c.toNat - 0x10000) / 0x400

def lowUnit (c : Char) : Nat := 0xDC00 + (c.toNat - 0x10000) % 0x400

/-- A text is the escape of a character. -/
inductive Escapes (c : Char) : List Char → Prop
  | letter (l : Char) (h : simpleEscape? l = some c) (hu : l ≠ 'u') (hl : IsPlain l) : Escapes c ['\\', l]
  | plain (hc : IsPlain c) (hquote : c ≠ '"') (hslash : c ≠ '\\') : Escapes c [c]
  | unit (hc : c.toNat < 0x10000) : Escapes c (unitEscape c.toNat)
  | pair (hc : 0x10000 ≤ c.toNat) : Escapes c (unitEscape (highUnit c) ++ unitEscape (lowUnit c))

theorem escapes_escapeChar (c : Char) : Escapes c (escapeChar c) := by
  unfold escapeChar
  split
  · next h =>
      rcases h with rfl | rfl
      · exact .letter '"' (by decide) (by decide) (by decide)
      · exact .letter '\\' (by decide) (by decide) (by decide)
  next hmarks =>
  obtain ⟨hquote, hslash⟩ := not_or.mp hmarks
  split
  · next h => exact h ▸ .letter 'n' (by decide) (by decide) (by decide)
  split
  · next h => exact h ▸ .letter 'r' (by decide) (by decide) (by decide)
  split
  · next h => exact h ▸ .letter 't' (by decide) (by decide) (by decide)
  split
  · next h => exact h ▸ .letter 'f' (by decide) (by decide) (by decide)
  split
  · next h => exact h ▸ .letter 'b' (by decide) (by decide) (by decide)
  split
  · next h => exact .plain h hquote hslash
  split
  · next h => exact .unit h
  · next h => exact .pair (Nat.le_of_not_lt h)

theorem length_four {cs : List Char} (h : cs.length = 4) : ∃ a b c d, cs = [a, b, c, d] := by
  match cs, h with
  | [a, b, c, d], _ => exact ⟨a, b, c, d, rfl⟩

/-- A unit is read back from its four digits. -/
theorem unit?_hex {n : Nat} (h : n < 0x10000) :
    ∃ a b c d, Text.hex 4 n = [a, b, c, d] ∧ unit? a b c d = some n := by
  obtain ⟨a, b, c, d, hdigits⟩ := length_four (Text.length_hex 4 n)
  refine ⟨a, b, c, d, hdigits, ?_⟩
  rw [unit?, ← hdigits, Text.ofHex?_hex h]

theorem string?_unit {n : Nat} (h : n < 0x10000) (hvalid : n < 0xD800 ∨ 0xDFFF < n) (rest : List Char) :
    string? (unitEscape n ++ rest) = (string? rest).map fun r => (Char.ofNat n :: r.1, r.2) := by
  obtain ⟨a, b, c, d, hdigits, hunit⟩ := unit?_hex h
  rw [unitEscape, hdigits]
  simp only [List.cons_append, List.nil_append]
  rw [string?, hunit]
  simp [hvalid]
  cases string? rest <;> rfl

theorem string?_pair {n m : Nat} (hn : 0xD800 ≤ n ∧ n < 0xDC00) (hm : 0xDC00 ≤ m ∧ m ≤ 0xDFFF)
    (rest : List Char) :
    string? (unitEscape n ++ (unitEscape m ++ rest)) = (string? rest).map fun r =>
      (Char.ofNat (0x10000 + (n - 0xD800) * 0x400 + (m - 0xDC00)) :: r.1, r.2) := by
  obtain ⟨a, b, c, d, hdigits, hunit⟩ := unit?_hex (n := n) (by omega)
  obtain ⟨e, f, g, h, hlowDigits, hlowUnit⟩ := unit?_hex (n := m) (by omega)
  rw [unitEscape, unitEscape, hdigits, hlowDigits]
  simp only [List.cons_append, List.nil_append]
  rw [string?, hunit]
  have hsurrogate : ¬(n < 0xD800 ∨ 0xDFFF < n) := by omega
  have hlow : n < 0xDC00 ∧ 0xDC00 ≤ m ∧ m ≤ 0xDFFF := by omega
  simp [hsurrogate, hlowUnit, hlow]
  cases string? rest <;> rfl

/-- The escape of a character is read as the character. -/
theorem string?_escapeChar (c : Char) (rest : List Char) :
    string? (escapeChar c ++ rest) = (string? rest).map fun r => (c :: r.1, r.2) := by
  have hescapes := escapes_escapeChar c
  generalize escapeChar c = cs at hescapes
  cases hescapes with
  | letter l h hu hl =>
      change string? ('\\' :: l :: rest) = _
      rw [string?.eq_4 l rest fun _ _ _ _ _ hl' _ => hu hl', h]
      cases string? rest <;> rfl
  | plain hc hquote hslash =>
      change string? (c :: rest) = _
      have hplain : ¬(c.toNat < 0x20 ∨ c = '\\') := by
        rintro (hlow | h)
        · exact absurd hc.1 (by omega)
        · exact hslash h
      rw [string?.eq_5 c rest hquote (fun _ _ _ _ _ h _ => hslash h) (fun _ _ h _ => hslash h), if_neg hplain]
      cases string? rest <;> rfl
  | unit hc =>
      have hvalid : c.toNat < 0xD800 ∨ 0xDFFF < c.toNat ∧ c.toNat < 0x110000 := c.valid
      rw [string?_unit hc (by omega), Char.ofNat_toNat]
  | pair hc =>
      have hvalid : c.toNat < 0xD800 ∨ 0xDFFF < c.toNat ∧ c.toNat < 0x110000 := c.valid
      have hcode : 0x10000 + (highUnit c - 0xD800) * 0x400 + (lowUnit c - 0xDC00) = c.toNat := by
        unfold highUnit lowUnit
        omega
      rw [List.append_assoc, string?_pair (by unfold highUnit; omega) (by unfold lowUnit; omega), hcode,
        Char.ofNat_toNat]

theorem string?_flatMap (cs rest : List Char) :
    string? (cs.flatMap escapeChar ++ '"' :: rest) = some (cs, rest) := by
  induction cs with
  | nil => rw [List.flatMap_nil, List.nil_append, string?]
  | cons c cs ih => rw [List.flatMap_cons, List.append_assoc, string?_escapeChar, ih, Option.map_some]

/-! ### What is written -/

theorem isPlain_hex {width n : Nat} {c : Char} (h : c ∈ Text.hex width n) : IsPlain c := by
  obtain ⟨k, hk, rfl⟩ := Text.mem_hex h
  clear h
  revert k
  decide

theorem isPlain_unitEscape {n : Nat} {c : Char} (h : c ∈ unitEscape n) : IsPlain c := by
  rw [unitEscape, List.mem_cons, List.mem_cons] at h
  rcases h with rfl | rfl | h
  · decide
  · decide
  · exact isPlain_hex h

theorem isPlain_escapeChar (c : Char) : ∀ d ∈ escapeChar c, IsPlain d := by
  have hescapes := escapes_escapeChar c
  generalize escapeChar c = cs at hescapes
  cases hescapes with
  | letter l h hu hl => exact List.forall_mem_cons.mpr ⟨by decide, List.forall_mem_singleton.mpr hl⟩
  | plain hc hquote hslash => exact List.forall_mem_singleton.mpr hc
  | unit hc => exact fun d hd => isPlain_unitEscape hd
  | pair hc => exact List.forall_mem_append.mpr ⟨fun d hd => isPlain_unitEscape hd, fun d hd => isPlain_unitEscape hd⟩

theorem isPlain_writeString (cs : List Char) : ∀ c ∈ writeString cs, IsPlain c := by
  intro c hc
  rw [writeString, List.cons_append, List.mem_cons, List.mem_append, List.mem_singleton] at hc
  rcases hc with rfl | hc | rfl
  · decide
  · obtain ⟨d, -, hd⟩ := List.mem_flatMap.mp hc
    exact isPlain_escapeChar d c hd
  · decide

end CatalogSteward.Json
