import CatalogSteward.Proofs.Settings.File

/-!
# Octal numbers in a file

The limit on the length of numbers is one on decimal numerals: an octal numeral of any length is read. So a file
can hold settings that are accepted but cannot be written.
-/

namespace CatalogSteward

namespace Decimal

/-- The octal numeral of a power of eight. -/
def octal (k : Nat) : List Char := '0' :: '1' :: List.replicate k '0'

theorem isDigit_octal (k : Nat) : ∀ c ∈ octal k, IsDigit c := by
  intro c hc
  simp only [octal, List.mem_cons, List.mem_replicate] at hc
  obtain rfl | rfl | ⟨-, rfl⟩ := hc <;> decide

theorem digitsFrom_zeros (number k : Nat) :
    digitsFrom 8 number (List.replicate k '0') = some (number * 8 ^ k) := by
  induction k generalizing number with
  | zero => simp [digitsFrom]
  | succ k ih =>
      have hzero : digit? 8 '0' = some 0 := by decide
      rw [List.replicate_succ, digitsFrom, hzero]
      · refine (ih _).trans ?_
        rw [Nat.pow_succ, Nat.add_zero, Nat.mul_assoc, Nat.mul_comm 8]
      · intro _ _ h
        cases h

theorem read_octal (k : Nat) : read 8 (String.ofList (octal k)) = .ok (8 ^ k : Nat) := by
  have hmarker : dropMarker 8 (octal k) = octal k := rfl
  have hnumeral : numeral? 8 (octal k) = some (8 ^ k) := by
    have hfirst : numeral? 8 (octal k) = digitsFrom 8 1 (List.replicate k '0') := rfl
    rw [hfirst, digitsFrom_zeros, Nat.one_mul]
  have hsign : ∀ c ∈ (octal k).head?, c ≠ '-' ∧ c ≠ '+' := by simp [octal]
  rw [read_unsigned (fun c hc => (isDigit_octal k c hc).isBlank) hsign, magnitude?, hmarker, hnumeral,
    if_pos (by simp)]
  rfl

theorem not_isWritable_octal : isWritable (8 ^ 4762 : Nat) = false := by decide +kernel

end Decimal

namespace Yaml
open Decimal Style Lexer

theorem ofPlain_octal (k : Nat) : Tag.ofPlain (octal k) = .int := by
  have hdigits := isDigit_octal k
  have hlast : (octal k).getLast? ≠ some '\n' := fun hlast =>
    (hdigits _ (List.mem_of_getLast? hlast)).ne (by decide) rfl
  have hint : Tag.isInt (octal k) = true := by
    change (!('1' :: List.replicate k '0').isEmpty && ('1' :: List.replicate k '0').all
      fun d => ('0' ≤ d && d ≤ '7') || d == '_') = true
    simp
  rw [Tag.ofPlain, Tag.dropFinalBreak, if_neg fun hbreak => hlast hbreak.2, Tag.ofForm, hint]
  rw [octal] at hdigits ⊢
  rw [Leaf.isBool_digits (hdigits _ List.mem_cons_self), Leaf.isReal_digits hdigits]
  rfl

theorem integerValue_octal (k : Nat) : integerValue (octal k) = .ok (8 ^ k : Nat) := by
  have hunderscore : (octal k).filter (· ≠ '_') = octal k :=
    List.filter_eq_self.mpr fun c hc => by simpa using (isDigit_octal k c hc).ne (d := '_') (by decide)
  have hsign : splitNumber (octal k) = .ok (false, octal k) := rfl
  have hread : readInteger 8 (octal k) = .ok (8 ^ k : Nat) := by
    rw [readInteger, read_octal]
    rfl
  rw [integerValue, hunderscore, hsign, octal]
  rw [octal] at hread
  simp [bind, Except.bind, hread, pure, Except.pure]

theorem isFlowing_octal (k : Nat) : IsFlowing (octal k) := by
  refine (isFlowing_of_word (List.cons_ne_nil _ _) rfl fun c hc => ?_).1
  have hdigit := isDigit_octal k c hc
  have hshown : IsShown c := by
    unfold IsDigit at hdigit
    unfold IsShown
    omega
  exact ⟨hshown, hdigit.ne (by decide), hdigit.ne (by decide), hdigit.ne (by decide)⟩

def beforeSize : List Char := "audit:\n  max_size_mb: ".toList

/-- A document with the size of the audit trail and nothing else. -/
def sizeDocument (word : List Char) : List Char := beforeSize ++ word ++ ['\n']

def sizeTokens (text : String) : List Token :=
  [.blockMappingStart, .key, (Leaf.text "audit").token, .value, .blockMappingStart, .key,
    (Leaf.text "max_size_mb").token, .value, .scalar true text, .blockEnd, .blockEnd]

theorem gives_size {word : List Char} (hword : IsFlowing word) :
    Gives .start (Position.start.spots (sizeDocument word)) (sizeTokens (String.ofList word)) := by
  have hdocument : sizeDocument word = writeText false 0 0 "audit".toList ++
      ':' :: (newLine 2 ++ (writeText false 2 2 "max_size_mb".toList ++ ':' :: (' ' :: (word ++ newLine 0)))) := rfl
  rw [hdocument]
  have hcontent : ∀ c ∈ (writeText false 2 2 "max_size_mb".toList ++ ':' :: (' ' :: (word ++ newLine 0))).head?,
      IsContent c := by
    intro c hc
    obtain rfl : 'm' = c := Option.some.inj hc
    decide
  refine gives_simpleKey (p := .start) (by decide) (by decide) (enters_new [] (by simp) []) rfl fun p count _ => ?_
  refine Gives.line hcontent ?_
  have hcolumn : (p.nextLine 2).column = 2 := p.nextLine_column 2
  refine gives_simpleKey (by decide) (by decide) (enters_new [0] (by simp [hcolumn]) _) rfl fun q count hq => ?_
  rw [hcolumn, ← List.append_nil (word ++ newLine 0)]
  refine gives_word hword (by omega) (Nat.zero_le 2) (by simp) fun r count _ => ?_
  exact gives_end [2, 0] true count (by simp [Leaf.token])

theorem ofTokens_size (text : String) :
    Node.ofTokens (sizeTokens text) = .ok (some (.mapping .mapping [(.scalar .text "audit",
      .mapping .mapping [(.scalar .text "max_size_mb", .scalar (Tag.ofPlain text.toList) text)])])) := rfl

theorem read_size {word : List Char} {n : Int} (hword : IsFlowing word) (htag : Tag.ofPlain word = .int)
    (hvalue : integerValue word = .ok n) :
    Yaml.read (sizeDocument word) = .ok (.mapping [(.text "audit", .mapping [(.text "max_size_mb", .int n)])]) := by
  have hcontent : ∀ c ∈ (sizeDocument word).head?, IsContent c := by
    intro c hc
    obtain rfl : 'a' = c := Option.some.inj hc
    decide
  have hallowed : (sizeDocument word).all isAllowed = true := by
    have hshown : word.all isAllowed = true :=
      List.all_eq_true.mpr fun c hc => (Plain.shown_of_flows hword.flows c hc).isAllowed
    have hbefore : beforeSize.all isAllowed = true := by decide
    rw [sizeDocument, List.all_append, List.all_append, hbefore, hshown]
    rfl
  have hbuild : Node.build (.scalar .int (String.ofList word)) = .ok (.int n) := by
    rw [Node.build, Node.buildScalar, if_neg (by decide), scalarValue, String.toList_ofList, hvalue]
    rfl
  rw [Yaml.read, (gives_size hword).ofText hcontent hallowed]
  dsimp only [bind, Except.bind]
  rw [ofTokens_size, String.toList_ofList, htag]
  dsimp only
  simp only [Node.build, Node.buildEntries] at hbuild ⊢
  rw [hbuild]
  rfl

end Yaml

namespace Settings
open Decimal Yaml

/-- The default settings with another size of the audit trail. -/
def sized (n : Int) : Settings := ⟨.default, { AuditSettings.default with maxSizeMb := n }⟩

/-- A size need only be positive to be accepted. -/
theorem conclude_size {n : Int} (h : 1 ≤ n) :
    conclude (readSettings [(.text "audit", .mapping [(.text "max_size_mb", .int n)])]) = .ok (sized n) := by
  refine (decides_readSettings _).conclude.mpr ⟨⟨Connection.isAccepted_default, ?_⟩, ?_⟩
  · exact ⟨AuditSettings.isAccepted_default.logPath, h, AuditSettings.isAccepted_default.backupCount⟩
  · exact ⟨⟨[], rfl, rfl, rfl, rfl, rfl, rfl, rfl, rfl, rfl⟩, _, rfl, rfl, rfl, rfl, rfl⟩

/-- A configuration file with an octal size. -/
def octalText (k : Nat) : String := String.ofList (sizeDocument (octal k))

theorem ofText_octal (k : Nat) (path : Path) : ofText path (octalText k) = .ok (sized (8 ^ k : Nat)) := by
  have hpositive : 1 ≤ ((8 ^ k : Nat) : Int) := by
    have hpower := Nat.pow_pos (a := 8) (n := k) (by decide)
    omega
  rw [ofText, octalText, String.toList_ofList, read_size (isFlowing_octal k) (ofPlain_octal k)
    (integerValue_octal k)]
  exact congrArg (Except.mapError _) (conclude_size hpositive)

theorem load_octal (k : Nat) {d : Disk} {path : Path} (hread : d.read path = .ok (Text.encodeUtf8 (octalText k))) :
    load path d = (.ok (sized (8 ^ k : Nat)), d) := by
  have hreturn : '\r' ∉ (octalText k).toList := by
    have hshown := Plain.shown_of_flows (isFlowing_octal k).flows
    rw [octalText, String.toList_ofList, sizeDocument, List.mem_append, List.mem_append]
    rintro ((hbefore | hword) | hafter)
    · exact absurd hbefore (by decide)
    · exact absurd (hshown _ hword) (by decide)
    · exact absurd hafter (by decide)
  rw [load_ofText hreturn hread, ofText_octal]

theorem not_isWritable_sized : (sized (8 ^ 4762 : Nat)).isWritable = false := by
  rw [isWritable, sized, not_isWritable_octal, Bool.and_false, Bool.false_and]

end Settings

end CatalogSteward
