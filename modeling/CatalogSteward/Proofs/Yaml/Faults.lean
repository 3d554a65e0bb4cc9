import CatalogSteward.Proofs.Except
import CatalogSteward.Yaml.Reader
import Mathlib.Tactic.SplitIfs

/-!
# Documents without a value

Most of what is wrong with a document is found out as such. What goes unnoticed until a value is needed is
a number with too many digits in a directive, an escape that stands for no character, and a scalar that
cannot be read in the way of its type.
-/

namespace CatalogSteward.Yaml

/-! ### Tokens -/

/-- The faults that a token can have: an escape beyond all characters and a number of too many digits. -/
inductive Fault.IsLexical : Fault → Prop
  | escape {code : Nat} (h : 0x10FFFF < code) : IsLexical (.escape code)
  | number {digits : Nat} (h : Decimal.digitLimit < digits) : IsLexical (.integer (.tooLong digits))

def Problem.IsLexical (p : Problem) : Prop := ∀ g, p = .fault g → g.IsLexical

theorem Problem.isLexical_malformed : Problem.IsLexical .malformed := fun _ h => by cases h

theorem Problem.isLexical_fault {g : Fault} (h : g.IsLexical) : Problem.IsLexical (.fault g) :=
  fun _ hg => by cases hg; exact h

open Problem

namespace Quoted

theorem charOfCode_fails (digits : List Char) : OnlyFails IsLexical (charOfCode digits) := by
  unfold charOfCode
  split
  · exact .error isLexical_malformed
  · next n _ =>
      split
      · next h => exact .error (isLexical_fault (.escape h))
      · split
        · exact .error isLexical_malformed
        · exact .ok _

theorem before_fails {r : Except Problem (List Char × List Spot)} (h : OnlyFails IsLexical r) (gap : Gap)
    (cs : List Char) : OnlyFails IsLexical (before gap cs r) := h.map _

theorem singleFrom_fails (gap : Gap) (spots : List Spot) : OnlyFails IsLexical (singleFrom gap spots) := by
  fun_induction singleFrom gap spots with
  | case1 | case4 => exact .error isLexical_malformed
  | case2 _ _ _ _ ih | case3 _ _ _ _ _ ih => exact ih
  | case6 | case7 => exact .ok _
  | case5 _ _ _ _ _ _ _ _ _ ih | case8 _ _ _ _ _ _ _ ih => exact before_fails ih _ _

theorem doubleFrom_fails (place : Place) (spots : List Spot) : OnlyFails IsLexical (doubleFrom place spots) := by
  fun_induction doubleFrom place spots with
  | case1 | case4 | case11 | case12 => exact .error isLexical_malformed
  | case5 => exact .ok _
  | case14 _ _ _ _ _ _ _ problem h => exact .error (charOfCode_fails _ _ h)
  | case7 | case8 | case10 | case13 => exact before_fails ‹_› _ _
  | _ => assumption

end Quoted

namespace Token

theorem ofBytes_fails (held : List UInt8) : OnlyFails IsLexical (ofBytes held) := by
  unfold ofBytes
  split
  · exact .ok _
  · exact .error isLexical_malformed

theorem unescapeFrom_fails (held : List UInt8) (cs : List Char) : OnlyFails IsLexical (unescapeFrom held cs) := by
  fun_induction unescapeFrom held cs with
  | case1 => exact ofBytes_fails _
  | case2 _ _ _ _ _ _ ih => exact ih
  | case3 | case4 => exact .error isLexical_malformed
  | case5 _ _ _ _ _ ih => exact (ofBytes_fails _).bind fun _ => ih.bind fun _ => .ok _

theorem readUri_fails (spots : List Spot) : OnlyFails IsLexical (readUri spots) := by
  unfold readUri
  dsimp only
  split
  · exact .error isLexical_malformed
  · exact (unescapeFrom_fails _ _).bind fun _ => .ok _

theorem readHandle_fails (spots : List Spot) : OnlyFails IsLexical (readHandle spots) := by
  unfold readHandle
  split
  · split
    · exact .ok _
    · split
      · exact .ok _
      · exact .error isLexical_malformed
  · exact .error isLexical_malformed

theorem readName_fails (spots : List Spot) : OnlyFails IsLexical (readName spots) := by
  unfold readName
  dsimp only
  split
  · exact .error isLexical_malformed
  · exact .ok _

theorem readNumber_fails (spots : List Spot) : OnlyFails IsLexical (readNumber spots) := by
  unfold readNumber
  dsimp only
  split
  · exact .error isLexical_malformed
  · split
    · next h => exact .error (isLexical_fault (.number h))
    · exact .ok _

/-- What is read before the end of a word. -/
theorem ended_fails {α : Type} (a : α) (spots : List Spot) :
    OnlyFails IsLexical (if endsWord spots then .ok a else .error .malformed) := by
  split
  · exact .ok _
  · exact .error isLexical_malformed

theorem readVersion_fails (spots : List Spot) : OnlyFails IsLexical (readVersion spots) := by
  refine (readNumber_fails _).bind fun ⟨major, rest⟩ => ?_
  dsimp only
  split
  · split
    · exact (readNumber_fails _).bind fun ⟨_, rest⟩ => ended_fails _ rest
    · exact .error isLexical_malformed
  · exact .error isLexical_malformed

theorem readHandleDirective_fails (spots : List Spot) : OnlyFails IsLexical (readHandleDirective spots) := by
  unfold readHandleDirective
  split
  · split
    · refine (readHandle_fails _).bind fun ⟨name, rest⟩ => ?_
      dsimp only
      split
      · exact (readUri_fails _).bind fun ⟨text, rest⟩ => ended_fails _ rest
      · exact .error isLexical_malformed
    · exact .error isLexical_malformed
  · exact .error isLexical_malformed

theorem skipIgnoredLine_fails (spots : List Spot) : OnlyFails IsLexical (skipIgnoredLine spots) := by
  unfold skipIgnoredLine
  dsimp only
  split
  · exact .ok _
  · split
    · exact .ok _
    · exact .error isLexical_malformed

/-- A token that is none in the place of one. -/
def IsWhole (t : Token) : Prop := ∀ g, t ≠ .broken g

theorem readDirective_ends (spots : List Spot) :
    EndsIn IsLexical (fun r => r.1.IsWhole) (readDirective spots) := by
  have hfinish (d : Directive) (rest : List Spot) :
      EndsIn IsLexical (fun r => r.1.IsWhole) (do return (directive d, ← skipIgnoredLine rest)) :=
    (skipIgnoredLine_fails rest).ends fun _ => .ok nofun
  unfold readDirective
  dsimp only
  split
  · exact .error isLexical_malformed
  · split
    · exact (readVersion_fails _).ends fun _ => hfinish _ _
    · split
      · exact (readHandleDirective_fails _).ends fun _ => hfinish _ _
      · exact hfinish _ _

theorem readTag_ends (spots : List Spot) : EndsIn IsLexical (fun r => r.1.IsWhole) (readTag spots) := by
  have hfinish (handle : Option String) (suffix : String) (rest : List Spot) :
      EndsIn IsLexical (fun r => r.1.IsWhole)
        (if endsWord rest then .ok (tag handle suffix, rest) else .error .malformed) := by
    split
    · exact .ok nofun
    · exact .error isLexical_malformed
  unfold readTag
  dsimp only
  split
  · exact hfinish none "!" []
  · split
    · refine (readUri_fails _).ends fun _ => ?_
      split
      · split
        · exact hfinish _ _ _
        · exact .error isLexical_malformed
      · exact .error isLexical_malformed
    · split
      · exact hfinish _ _ _
      · split
        · exact (readHandle_fails _).ends fun _ => (readUri_fails _).ends fun _ => hfinish _ _ _
        · exact (readUri_fails _).ends fun _ => hfinish _ _ _

end Token

namespace Lexer

variable {lx : Lexer} {s : Spot} {rest : List Spot} {t : Token}

/-- A state of reading in which no token is broken. -/
def IsWhole (lx : Lexer) : Prop := ∀ t ∈ lx.tokens, t.IsWhole

theorem IsWhole.emit (h : lx.IsWhole) (ht : t.IsWhole) : (lx.emit t).IsWhole :=
  List.forall_mem_cons.mpr ⟨ht, h⟩

theorem IsWhole.insertBefore (h : lx.IsWhole) (number : Nat) (ht : t.IsWhole) :
    (lx.insertBefore number t).IsWhole := by
  refine List.forall_mem_append.mpr ⟨fun u hu => h u (List.mem_of_mem_take hu), ?_⟩
  exact List.forall_mem_cons.mpr ⟨ht, fun u hu => h u (List.mem_of_mem_drop hu)⟩

theorem IsWhole.close (h : lx.IsWhole) (n : Nat) : ∀ t ∈ List.replicate n .blockEnd ++ lx.tokens, t.IsWhole := by
  refine List.forall_mem_append.mpr ⟨fun t ht => ?_, h⟩
  rw [List.eq_of_mem_replicate ht]
  exact nofun

theorem IsWhole.closeTo (h : lx.IsWhole) (column : Nat) : (lx.closeTo column).IsWhole := by
  unfold Lexer.closeTo
  split
  · exact h
  · exact h.close _

theorem IsWhole.closeAll (h : lx.IsWhole) : lx.closeAll.IsWhole := by
  unfold Lexer.closeAll
  split
  · exact h
  · exact h.close _

theorem IsWhole.openBlock (h : lx.IsWhole) (column : Nat) (ht : t.IsWhole) : (lx.openBlock column t).IsWhole := by
  unfold Lexer.openBlock
  split
  · exact IsWhole.emit h ht
  · exact h

theorem forgetStale_ends (h : lx.IsWhole) (s : Spot) : EndsIn (· = .malformed) IsWhole (lx.forgetStale s) := by
  unfold forgetStale
  dsimp only
  split
  · exact .error rfl
  · exact .ok h

theorem forgetKey_ends (h : lx.IsWhole) : EndsIn IsLexical IsWhole lx.forgetKey := by
  unfold forgetKey
  split
  · exact .error isLexical_malformed
  · exact .ok h

theorem noteKey_ends (h : lx.IsWhole) (s : Spot) : EndsIn IsLexical IsWhole (lx.noteKey s) := by
  unfold noteKey
  split
  · exact (forgetKey_ends h).bind fun _ h => .ok h
  · exact .ok h

/-- What reading a token leads to: a state without broken tokens, or a fault that a token can have. -/
abbrev IsSound (r : Result) : Prop := EndsIn IsLexical (fun r => r.1.IsWhole) r

theorem boundary_sound (h : lx.IsWhole) (ht : t.IsWhole) (rest : List Spot) : IsSound (lx.boundary t rest) :=
  (forgetKey_ends h.closeAll).bind fun _ h => .ok (IsWhole.emit h ht)

theorem openFlow_sound (h : lx.IsWhole) (ht : t.IsWhole) (s : Spot) (rest : List Spot) :
    IsSound (lx.openFlow t s rest) :=
  (noteKey_ends h s).bind fun _ h => .ok (IsWhole.emit h ht)

theorem closeFlow_sound (h : lx.IsWhole) (ht : t.IsWhole) (rest : List Spot) : IsSound (lx.closeFlow t rest) :=
  (forgetKey_ends h).bind fun _ h => .ok (IsWhole.emit h ht)

theorem mark_sound {opening : Token} (h : lx.IsWhole) (hopening : opening.IsWhole) (ht : t.IsWhole)
    (allowed : Bool) (s : Spot) (rest : List Spot) : IsSound (lx.mark opening t allowed s rest) := by
  unfold mark
  split
  · exact .error isLexical_malformed
  · refine .bind (forgetKey_ends ?_) fun _ h => .ok (IsWhole.emit h ht)
    split
    · exact h.openBlock _ hopening
    · exact h

theorem colon_sound (h : lx.IsWhole) (s : Spot) (rest : List Spot) : IsSound (lx.colon s rest) := by
  have hkeyMark : Token.key.IsWhole := nofun
  have hvalue : Token.value.IsWhole := nofun
  have hstart : Token.blockMappingStart.IsWhole := nofun
  unfold colon
  split
  · next k _ =>
      have hkey : IsWhole (Lexer.insertBefore k.number .key
          { lx with keys := lx.keys.filter (fun k => k.1 != lx.flow), keyAllowed := false }) :=
        IsWhole.insertBefore h k.number hkeyMark
      dsimp only
      split
      · exact .ok (IsWhole.emit (IsWhole.insertBefore hkey k.number hstart) hvalue)
      · exact .ok (IsWhole.emit hkey hvalue)
  · exact mark_sound h hstart hvalue _ _ _

theorem content_sound (h : lx.IsWhole) (s : Spot) {read : Except Problem (Token × List Spot)}
    (hread : EndsIn IsLexical (fun r => r.1.IsWhole) read) : IsSound (lx.content s read) :=
  (noteKey_ends h s).bind fun _ h => hread.bind fun _ ht => .ok (IsWhole.emit h ht)

theorem scan_fails (folded : Bool) (least : Nat) (spots : List Spot) :
    OnlyFails IsLexical (Block.scan folded least spots) := by
  have hincrement (spots : List Spot) : OnlyFails IsLexical (Block.readIncrement spots) := by
    unfold Block.readIncrement
    split
    · exact .ok _
    · split
      · next increment h =>
          refine OnlyFails.map ?_ _
          unfold Block.increment? at h
          split_ifs at h
          · cases h
            exact .ok _
          · cases h
            exact .error isLexical_malformed
      · exact .ok _
  have hfinish (header : Block.Header) (spots : List Spot) : OnlyFails IsLexical
      (if endsAt (fun c => c == ' ' || isBreak c) spots then do return (header, ← skipIgnoredLine spots)
      else .error .malformed) := by
    split
    · exact (Token.skipIgnoredLine_fails _).bind fun _ => .ok _
    · exact .error isLexical_malformed
  refine OnlyFails.bind ?_ fun _ => .ok _
  exact (hincrement _).bind fun _ => hfinish _ _

theorem block_sound (h : lx.IsWhole) (folded : Bool) (rest : List Spot) : IsSound (lx.block folded rest) := by
  unfold block
  refine .bind (forgetKey_ends h) fun lx h => ?_
  exact (scan_fails _ _ _).ends fun _ => .ok (IsWhole.emit h nofun)

theorem plain_sound (h : lx.IsWhole) (s : Spot) (spots : List Spot) : IsSound (lx.plain s spots) :=
  (noteKey_ends h s).bind fun _ h => .ok (IsWhole.emit h nofun)

theorem quoted_ends {read : Except Problem (List Char × List Spot)} (h : OnlyFails IsLexical read) :
    EndsIn IsLexical (fun r => r.1.IsWhole) (quoted read) := by
  cases read with
  | error e => exact .error (h e rfl)
  | ok r => exact .ok nofun

theorem token_sound (h : lx.IsWhole) (s : Spot) (rest : List Spot) : IsSound (lx.token s rest) := by
  have hname (rest : List Spot) {f : String × List Spot → Token × List Spot} (hf : ∀ r, (f r).1.IsWhole) :
      EndsIn IsLexical (fun r => r.1.IsWhole) ((Token.readName rest).map f) := by
    have hfails := Token.readName_fails rest
    cases hread : Token.readName rest with
    | error e => exact .error (hfails e hread)
    | ok r => exact .ok (hf r)
  unfold token
  dsimp only
  split
  · exact (Token.readDirective_ends _).bind fun r ht => boundary_sound h ht _
  · split
    · exact boundary_sound h (by nofun) _
    · split
      · exact boundary_sound h (by nofun) _
      · split
        · exact openFlow_sound h (by nofun) _ _
        · exact openFlow_sound h (by nofun) _ _
        · exact closeFlow_sound h (by nofun) _
        · exact closeFlow_sound h (by nofun) _
        · exact .bind (forgetKey_ends h) fun _ h => .ok (IsWhole.emit h (by nofun))
        · exact content_sound h _ (hname _ fun _ => by nofun)
        · exact content_sound h _ (hname _ fun _ => by nofun)
        · exact content_sound h _ (Token.readTag_ends _)
        · exact content_sound h _ (quoted_ends (Quoted.singleFrom_fails _ _))
        · exact content_sound h _ (quoted_ends (Quoted.doubleFrom_fails _ _))
        · split_ifs
          · exact mark_sound h (by nofun) (by nofun) _ _ _
          · exact mark_sound h (by nofun) (by nofun) _ _ _
          · exact colon_sound h _ _
          · exact block_sound h _ _
          · exact block_sound h _ _
          · exact plain_sound h _ _
          · exact .error isLexical_malformed

/-- A broken token is only there for a fault that a token can have. -/
def AreTokens (ts : List Token) : Prop := ∀ g, .broken g ∈ ts → g.IsLexical

theorem IsWhole.areTokens (h : lx.IsWhole) {ts : List Token} (hts : ∀ t ∈ ts, t ∈ lx.tokens) : AreTokens ts :=
  fun g hg => absurd rfl (h _ (hts _ hg) g)

theorem IsWhole.settled (h : lx.IsWhole) {g : Fault} (hg : g.IsLexical) :
    AreTokens (lx.settled ++ [.broken g]) := by
  intro g' hg'
  obtain hsettled | hbroken := List.mem_append.mp hg'
  · exact absurd rfl (h _ (List.mem_reverse.mp (List.mem_of_mem_take hsettled)) g')
  · cases List.mem_singleton.mp hbroken
    exact hg

/-- Reading goes on after every token but a broken one. -/
theorem run_ends (steps : Nat) (h : lx.IsWhole) (spots : List Spot) :
    EndsIn (· = Problem.malformed) AreTokens (run steps lx spots) := by
  have hend {lx : Lexer} (h : lx.IsWhole) : EndsIn (· = Problem.malformed) AreTokens
      (if lx.keys.any fun k => k.2.required then .error .malformed else .ok lx.closeAll.tokens.reverse) := by
    split
    · exact .error rfl
    · exact .ok (h.closeAll.areTokens fun t ht => List.mem_reverse.mp ht)
  induction steps generalizing lx spots with
  | zero => exact .error rfl
  | succ steps ih =>
      cases spots with
      | nil => exact hend h
      | cons s rest =>
          refine .bind (forgetStale_ends h s) fun before hbefore => ?_
          dsimp only
          split
          · exact ih hbefore []
          · next t rest _ =>
              refine .bind (forgetStale_ends hbefore t) fun lx hlx => ?_
              have hallow (allowed : Bool) : IsWhole (if allowed then { lx with keyAllowed := true } else lx) := by
                split
                · exact hlx
                · exact hlx
              have hsound (allowed : Bool) := token_sound ((hallow allowed).closeTo t.column) t rest
              split
              · next htoken => exact ih ((hsound _).result _ htoken) _
              · next g htoken => exact .ok (hbefore.settled ((hsound _).fails _ htoken g rfl))
              · exact .error rfl

end Lexer

theorem Token.ofText_ends (text : List Char) : EndsIn (· = .malformed) Lexer.AreTokens (Token.ofText text) := by
  unfold Token.ofText
  dsimp only
  split
  · have hstart : Lexer.start.IsWhole := List.forall_mem_nil _
    exact Lexer.run_ends _ hstart _
  · exact .error rfl

end CatalogSteward.Yaml
