import CatalogSteward.Proofs.Yaml.Faults

/-!
# Documents without a value

A document that is well formed has no value if one of its tokens is broken, or if a scalar in its tree
cannot be read in the way of its type. Reading a document ends in a fault for no other reason.
-/

namespace CatalogSteward.Yaml

namespace Node

/-! ### Trees -/

variable {α β : Type} {ts : List Token}

/-- A problem that is no fault, unless it comes from a broken token of a list. -/
def ComesFrom (ts : List Token) (p : Problem) : Prop := ∀ g, p = .fault g → .broken g ∈ ts

theorem comesFrom_malformed (ts : List Token) : ComesFrom ts .malformed := nofun

theorem comesFrom_broken {g : Fault} (h : .broken g ∈ ts) : ComesFrom ts (.fault g) :=
  fun _ hg => by cases hg; exact h

/-- A reading of tokens out of a list, with a fault only where the list holds a broken token. -/
def Tame (ts : List Token) (p : Parse α) : Prop :=
  ∀ s : Source, s.tokens ⊆ ts → EndsIn (ComesFrom ts) (fun r => r.2.tokens ⊆ ts) (p.run s)

namespace Tame

variable {p : Parse α} {f : α → Parse β}

theorem pure (a : α) : Tame ts (pure a) := fun _ hs => .ok hs

theorem fail : Tame ts (Node.fail : Parse α) := fun _ _ => .error (comesFrom_malformed ts)

theorem bind (hp : Tame ts p) (hf : ∀ a, Tame ts (f a)) : Tame ts (p >>= f) :=
  fun s hs => (hp s hs).bind fun r hr => hf r.1 r.2 hr

theorem get_bind {f : Source → Parse β} (hf : ∀ s : Source, s.tokens ⊆ ts → Tame ts (f s)) :
    Tame ts (get >>= f) :=
  fun s hs => hf s hs s hs

theorem set {s : Source} (h : s.tokens ⊆ ts) : Tame ts (set s : Parse PUnit) := fun _ _ => .ok h

theorem liftM_bind {x : Except Problem α} {R : α → Prop} {tokens : List Token}
    (hx : EndsIn (ComesFrom tokens) R x) (htokens : tokens ⊆ ts)
    (hf : ∀ a, R a → Tame ts (f a)) : Tame ts (liftM x >>= f) := by
  intro s hs
  cases x with
  | error e => exact .error fun g hg => htokens (hx.fails e rfl g hg)
  | ok a => exact hf a (hx.result a rfl) s hs

theorem modify {f : Source → Source} (hf : ∀ s, (f s).tokens ⊆ s.tokens) : Tame ts (modify f : Parse Unit) :=
  fun s hs => .ok (List.Subset.trans (hf s) hs)

theorem throw {g : Fault} (h : .broken g ∈ ts) : Tame ts (throw (.fault g) : Parse α) :=
  fun _ _ => .error (comesFrom_broken h)

theorem peek : Tame ts peek := by
  refine .get_bind fun s hs => ?_
  split
  · exact .pure _
  · next htokens => exact .throw (hs (htokens ▸ List.mem_cons_self))
  · exact .pure _

theorem advance : Tame ts advance := modify fun _ => List.drop_subset _ _

theorem accept (t : Token) : Tame ts (accept t) := by
  refine .bind .peek fun _ => ?_
  split
  · exact .bind .advance fun _ => .pure _
  · exact .pure _

theorem expect (t : Token) : Tame ts (expect t) := by
  refine .bind (.accept t) fun _ => ?_
  split
  · exact .fail
  · exact .pure _

theorem emptyBefore {read : Parse Node} (h : Tame ts read) (stops : List Token) :
    Tame ts (emptyBefore stops read) := by
  refine .bind ?_ fun isEmpty => ?_
  · refine .bind .peek fun next => ?_
    split
    · exact .pure _
    · exact .pure _
  · split
    · exact .pure _
    · exact h

theorem acceptAnchor : Tame ts acceptAnchor := by
  refine .bind .peek fun _ => ?_
  split
  · exact .bind .advance fun _ => .pure _
  · exact .pure _

theorem acceptTag : Tame ts acceptTag := by
  refine .bind .peek fun _ => ?_
  split
  · exact .bind .advance fun _ => .pure _
  · exact .pure _

theorem tagText (handle : Option String) (suffix : String) : Tame ts (tagText handle suffix) := by
  unfold Node.tagText
  split
  · exact .pure _
  · refine .get_bind fun s _ => ?_
    split
    · exact .pure _
    · exact .fail

theorem properties : Tame ts properties := by
  refine .bind .acceptAnchor fun early => ?_
  refine .bind .acceptTag fun tag => ?_
  cases tag with
  | none =>
      dsimp only
      split
      · exact .bind .acceptAnchor fun _ => .pure _
      · exact .bind (.pure early) fun _ => .pure _
  | some tag =>
      have htag (anchor : Option String) : Tame ts (do return (anchor, some (← Node.tagText tag.1 tag.2))) :=
        .bind (.tagText _ _) fun _ => .pure _
      dsimp only
      split
      · exact .bind .acceptAnchor htag
      · exact .bind (.pure early) htag

theorem bindAnchor (anchor : Option String) (value : Anchored) : Tame ts (bindAnchor anchor value) := by
  unfold Node.bindAnchor
  split
  · exact .pure _
  · exact .modify fun _ => List.Subset.refl _

theorem checkAnchor (anchor : Option String) : Tame ts (checkAnchor anchor) := by
  unfold Node.checkAnchor
  split
  · exact .pure _
  · refine .get_bind fun s _ => ?_
    split
    · exact .fail
    · exact .pure _

theorem referenced (name : String) : Tame ts (referenced name) := by
  refine .get_bind fun s _ => ?_
  split
  · exact .pure _
  · exact .pure _
  · exact .fail

end Tame

/-- Reading is tame to a depth. -/
structure IsTame (ts : List Token) (steps : Nat) : Prop where
  node (place : Place) : Tame ts (node place steps)
  blockItems : Tame ts (blockItems steps)
  openItems : Tame ts (openItems steps)
  blockEntries : Tame ts (blockEntries steps)
  flowItems (first : Bool) : Tame ts (flowItems first steps)
  flowEntries (first : Bool) : Tame ts (flowEntries first steps)

theorem node_tame {steps : Nat} (h : IsTame ts steps) (place : Place) : Tame ts (node place (steps + 1)) := by
  have hcollection (anchor : Option String) (isMapping : Bool) {read : Parse Node} (hread : Tame ts read) :
      Tame ts (do
        checkAnchor anchor
        bindAnchor anchor (.reading isMapping)
        let n ← read
        bindAnchor anchor (.node n)
        return n) :=
    .bind (.checkAnchor _) fun _ => .bind (.bindAnchor _ _) fun _ => .bind hread fun _ =>
      .bind (.bindAnchor _ _) fun _ => .pure _
  have hscalar (anchor : Option String) (n : Node) : Tame ts (do
      checkAnchor anchor
      bindAnchor anchor (.node n)
      return n) :=
    .bind (.checkAnchor _) fun _ => .bind (.bindAnchor _ _) fun _ => .pure _
  unfold node
  refine .bind .peek fun next => ?_
  dsimp only
  split
  · exact .bind .advance fun _ => .referenced _
  · refine .bind .properties fun ⟨anchor, tag⟩ => .bind .peek fun next => ?_
    dsimp only
    split
    · exact .bind .advance fun _ => hscalar _ _
    · exact .bind .advance fun _ => hcollection _ _ (.bind (h.flowItems _) fun _ => .pure _)
    · exact .bind .advance fun _ => hcollection _ _ (.bind (h.flowEntries _) fun _ => .pure _)
    · exact hcollection _ _ (.bind h.openItems fun _ => .pure _)
    · exact .bind .advance fun _ => hcollection _ _ (.bind h.blockItems fun _ => .pure _)
    · exact .bind .advance fun _ => hcollection _ _ (.bind h.blockItems fun _ => .pure _)
    · exact .bind .advance fun _ => hcollection _ _ (.bind h.blockEntries fun _ => .pure _)
    · exact .bind .advance fun _ => hcollection _ _ (.bind h.blockEntries fun _ => .pure _)
    · split
      · exact .fail
      · exact hscalar _ _

theorem blockItems_tame {steps : Nat} (h : IsTame ts steps) : Tame ts (blockItems (steps + 1)) := by
  unfold blockItems
  refine .bind (.accept _) fun isEntry => ?_
  split
  · refine .bind (.emptyBefore (h.node _) _) fun _ => ?_
    exact .bind h.blockItems fun _ => .pure _
  · exact .bind (.expect _) fun _ => .pure _

theorem openItems_tame {steps : Nat} (h : IsTame ts steps) : Tame ts (openItems (steps + 1)) := by
  unfold openItems
  refine .bind (.accept _) fun isEntry => ?_
  split
  · refine .bind (.emptyBefore (h.node _) _) fun _ => ?_
    exact .bind h.openItems fun _ => .pure _
  · exact .pure _

theorem blockEntries_tame {steps : Nat} (h : IsTame ts steps) : Tame ts (blockEntries (steps + 1)) := by
  have hrest (entry : Node × Node) : Tame ts (do return entry :: (← blockEntries steps)) :=
    .bind h.blockEntries fun _ => .pure _
  unfold blockEntries
  refine .bind (.accept _) fun isKey => ?_
  dsimp only
  split
  · refine .bind (.emptyBefore (h.node _) _) fun key => .bind (.accept _) fun isValue => ?_
    split
    · exact .bind (.emptyBefore (h.node _) _) fun value => hrest _
    · exact .bind (.pure _) fun value => hrest _
  · exact .bind (.expect _) fun _ => .pure _

/-- What follows a key in a flow collection: a value, or nothing. -/
theorem flowValue_tame {steps : Nat} (h : IsTame ts steps) (stops : List Token) {f : Node → Parse α}
    (hf : ∀ n, Tame ts (f n)) : Tame ts (do
      if ← accept .value then
        let value ← emptyBefore stops (node .flow steps)
        f value
      else
        let value ← pure empty
        f value) := by
  refine .bind (.accept _) fun isValue => ?_
  split
  · exact .bind (.emptyBefore (h.node _) _) hf
  · exact .bind (.pure _) hf

/-- An entry of a flow collection that has not ended, after a comma unless it is the first one. -/
theorem entry_tame {done read : Parse α} {t : Token} (hdone : Tame ts done) (hread : Tame ts read)
    (first : Bool) : Tame ts (do
      if ← accept t then done
      else
        if !first then
          expect .flowEntry
          if ← accept t then done else read
        else read) := by
  refine .bind (.accept _) fun isEnd => ?_
  split
  · exact hdone
  · split
    · refine .bind (.expect _) fun _ => .bind (.accept _) fun isEnd => ?_
      split
      · exact hdone
      · exact hread
    · exact hread

theorem flowItems_tame {steps : Nat} (h : IsTame ts steps) (first : Bool) :
    Tame ts (flowItems first (steps + 1)) := by
  have hrest (item : Node) : Tame ts (do return item :: (← flowItems false steps)) :=
    .bind (h.flowItems _) fun _ => .pure _
  have hitem : Tame ts (do
      let item ←
        if ← accept .key then
          let key ← emptyBefore [.value, .flowEntry, .flowSequenceEnd] (node .flow steps)
          let value ←
            if ← accept .value then emptyBefore [.flowEntry, .flowSequenceEnd] (node .flow steps)
            else pure empty
          pure (Node.mapping .mapping [(key, value)])
        else node .flow steps
      return item :: (← flowItems false steps)) := by
    refine .bind (.accept _) fun isKey => ?_
    dsimp only
    split
    · refine .bind (.emptyBefore (h.node _) _) fun key => ?_
      exact flowValue_tame h _ fun value => .bind (.pure _) hrest
    · exact .bind (h.node _) hrest
  unfold flowItems
  exact entry_tame (.pure _) hitem first

theorem flowEntries_tame {steps : Nat} (h : IsTame ts steps) (first : Bool) :
    Tame ts (flowEntries first (steps + 1)) := by
  have hrest (entry : Node × Node) : Tame ts (do return entry :: (← flowEntries false steps)) :=
    .bind (h.flowEntries _) fun _ => .pure _
  have hentry : Tame ts (do
      let entry ←
        if ← accept .key then
          let key ← emptyBefore [.value, .flowEntry, .flowMappingEnd] (node .flow steps)
          let value ←
            if ← accept .value then emptyBefore [.flowEntry, .flowMappingEnd] (node .flow steps)
            else pure empty
          pure (key, value)
        else pure (← node .flow steps, empty)
      return entry :: (← flowEntries false steps)) := by
    refine .bind (.accept _) fun isKey => ?_
    dsimp only
    split
    · refine .bind (.emptyBefore (h.node _) _) fun key => ?_
      exact flowValue_tame h _ fun value => .bind (.pure _) hrest
    · exact .bind (h.node _) fun _ => .bind (.pure _) hrest
  unfold flowEntries
  exact entry_tame (.pure _) hentry first

theorem isTame (ts : List Token) (steps : Nat) : IsTame ts steps := by
  induction steps with
  | zero => exact ⟨fun _ => .fail, .fail, .fail, .fail, fun _ => .fail, fun _ => .fail⟩
  | succ steps h =>
      exact ⟨node_tame h, blockItems_tame h, openItems_tame h, blockEntries_tame h, flowItems_tame h,
        flowEntries_tame h⟩

/-- The directives before a document are fine up to a broken token. -/
theorem directives_ends (version : Bool) (handles : List (String × String)) (tokens : List Token) :
    EndsIn (ComesFrom tokens) (fun r => r.2 ⊆ tokens) (directives version handles tokens) := by
  have hskip {t : Token} {tokens : List Token} {r : Except Problem (List (String × String) × List Token)}
      (h : EndsIn (ComesFrom tokens) (fun r => r.2 ⊆ tokens) r) :
      EndsIn (ComesFrom (t :: tokens)) (fun r => r.2 ⊆ t :: tokens) r :=
    ⟨fun e he g hg => List.mem_cons_of_mem _ (h.fails e he g hg),
      fun r hr => List.subset_cons_of_subset _ (h.result r hr)⟩
  fun_induction directives version handles tokens with
  | case1 | case3 => exact .error (comesFrom_malformed _)
  | case2 _ _ _ _ _ ih | case4 _ _ _ _ _ _ ih | case5 _ _ _ ih => exact hskip ih
  | case6 => exact .error (comesFrom_broken List.mem_cons_self)
  | case7 => exact .ok (List.Subset.refl _)

theorem document_tame : Tame ts document := by
  have hend (steps : Nat) : Tame ts (do
      expect .documentStart
      if (← peek).all endsDocument then return empty else node .block steps) := by
    refine .bind (.expect _) fun _ => .bind .peek fun _ => ?_
    split
    · exact .pure _
    · exact (isTame ts _).node _
  refine .get_bind fun s hs => .bind .peek fun next => ?_
  dsimp only
  split
  · refine .liftM_bind (directives_ends false [] s.tokens) hs fun r hr => ?_
    exact .get_bind fun s _ => .bind (.set (List.Subset.trans hr hs)) fun _ => hend _
  · exact (isTame ts _).node _

theorem stream_tame : Tame ts stream := by
  refine .bind .peek fun next => ?_
  split
  · exact .pure _
  · refine .bind document_tame fun n => ?_
    refine .bind (.modify fun s => List.dropWhile_subset _) fun _ => .bind .peek fun next => ?_
    split
    · exact .pure _
    · exact .fail

/-- Tokens have no tree for a fault only if one of them is broken by it. -/
theorem ofTokens_fails (tokens : List Token) :
    OnlyFails (ComesFrom tokens) (ofTokens tokens) :=
  (stream_tame ⟨tokens, defaultHandles, []⟩ (List.Subset.refl _)).fails.map _

end Node

/-! ### Values -/

/-- A value that is built, or a problem that is no fault unless by one of certain faults. -/
def Built {α : Type} (Q : Fault → Prop) (b : Build α) : Prop :=
  OnlyFails (fun d => ∀ g, d.problem = .fault g → Q g) b

namespace Built

variable {α β : Type} {Q : Fault → Prop} {b : Build α}

theorem ok (a : α) : Built Q (.ok a) := OnlyFails.ok a

theorem malformed : Built Q (refuse .malformed : Build α) := OnlyFails.error nofun

theorem later (h : Built Q b) : Built Q b.later := by
  cases b with
  | ok a => exact .ok a
  | error d => exact .error (h d rfl)

theorem map (h : Built Q b) (f : α → β) : Built Q (b.map f) := OnlyFails.map h f

theorem both {c : Build β} (hb : Built Q b) (hc : Built Q c) : Built Q (b.both c) := by
  cases b with
  | ok a =>
      cases c with
      | ok _ => exact .ok _
      | error e => exact .error (hc e rfl)
  | error d =>
      cases c with
      | ok _ => exact .error (hb d rfl)
      | error e =>
          refine .error ?_
          split
          · exact hc e rfl
          · exact hb d rfl

theorem all {bs : List (Build α)} (h : ∀ b ∈ bs, Built Q b) : Built Q (Build.all bs) := by
  induction bs with
  | nil => exact .ok _
  | cons b bs ih =>
      obtain ⟨hb, hbs⟩ := List.forall_mem_cons.mp h
      exact (hb.both (ih hbs)).map _

end Built

namespace Node

/-- A node that stands in a tree, the top of which is another one. -/
inductive Occurs : Node → Node → Prop
  | top (n : Node) : Occurs n n
  | item {m n : Node} {tag : Tag} {items : List Node} (hn : n ∈ items) (h : Occurs m n) :
      Occurs m (.list tag items)
  | key {m : Node} {e : Node × Node} {tag : Tag} {entries : List (Node × Node)} (he : e ∈ entries)
      (h : Occurs m e.1) : Occurs m (.mapping tag entries)
  | value {m : Node} {e : Node × Node} {tag : Tag} {entries : List (Node × Node)} (he : e ∈ entries)
      (h : Occurs m e.2) : Occurs m (.mapping tag entries)

/-- A node whose text cannot be read in the way of its type. -/
inductive IsUnvalued : Node → Fault → Prop
  | scalar {tag : Tag} {text : String} {g : Fault} (h : scalarValue tag text = .error (.fault g)) :
      IsUnvalued (.scalar tag text) g
  | disguised {tag : Tag} {entries : List (Node × Node)} {text : String} {g : Fault}
      (htext : entryText? entries = some text) (h : scalarValue tag text = .error (.fault g)) :
      IsUnvalued (.mapping tag entries) g
  | timestamp {entries : List (Node × Node)} {text : String} (htext : entryText? entries = some text) :
      IsUnvalued (.mapping .timestamp entries) .notText

/-- The faults of a tree are among the given ones. -/
def FaultsIn (Q : Fault → Prop) (n : Node) : Prop := ∀ m, Occurs m n → ∀ g, m.IsUnvalued g → Q g

variable {Q : Fault → Prop}

theorem buildScalar_built {tag : Tag} {text : String} (h : ∀ g, scalarValue tag text = .error (.fault g) → Q g) :
    Built Q (buildScalar tag text) := by
  unfold buildScalar
  split
  · exact .later .malformed
  · cases hvalue : scalarValue tag text with
    | ok v => exact .ok v
    | error p => exact .error fun g hg => h g (hg ▸ hvalue)

theorem buildDisguised_built {tag : Tag} {entries : List (Node × Node)}
    (h : ∀ g, (mapping tag entries).IsUnvalued g → Q g) : Built Q (buildDisguised tag (entryText? entries)) := by
  unfold buildDisguised
  split
  · next htext => exact .error fun g hg => by cases hg; exact h _ (.timestamp htext)
  · next htext _ => exact buildScalar_built fun g hg => h g (.disguised htext hg)
  · exact .malformed

theorem keyValue_built (key : Node) {b : Build Value} (h : Built Q b) : Built Q (keyValue key b) := by
  unfold keyValue
  split
  · exact .ok _
  · split
    · exact .malformed
    · exact h

theorem FaultsIn.item {tag : Tag} {items : List Node} (h : FaultsIn Q (list tag items)) :
    ∀ n ∈ items, FaultsIn Q n :=
  fun _ hn m hm => h m (.item hn hm)

/-- The faults of entries, in their keys and in their values, are among the given ones. -/
def FaultsInEntries (Q : Fault → Prop) (entries : List (Node × Node)) : Prop :=
  ∀ e ∈ entries, FaultsIn Q e.1 ∧ FaultsIn Q e.2

theorem FaultsIn.entries {tag : Tag} {entries : List (Node × Node)} (h : FaultsIn Q (mapping tag entries)) :
    FaultsInEntries Q entries :=
  fun _ he => ⟨fun m hm => h m (.key he hm), fun m hm => h m (.value he hm)⟩

/-- Entries of which each one is built. -/
def BuiltEntries (Q : Fault → Prop) (es : Entries) : Prop :=
  (∀ b ∈ es.added, Built Q b) ∧ ∀ b ∈ es.own, Built Q b

theorem BuiltEntries.all {es : Entries} (h : BuiltEntries Q es) : ∀ b ∈ es.all, Built Q b :=
  List.forall_mem_append.mpr h

mutual

theorem build_built : ∀ n : Node, FaultsIn Q n → Built Q n.build
  | scalar tag text, h => by
      rw [build]
      exact buildScalar_built fun g hg => h _ (.top _) g (.scalar hg)
  | list tag items, h => by
      unfold build
      split
      · exact .later (.map (.all (buildItems_built items h.item)) _)
      · exact .later (.map (.all (buildPairs_built items h.item)) _)
      · exact .later .malformed
      · exact .later .malformed
      · exact .malformed
  | mapping tag entries, h => by
      have hentries := buildEntries_built entries h.entries
      unfold build
      split
      · next hes => exact .later (.map (.all (hentries _ hes).all) _)
      · next hes => exact .later (.map (.all (hentries _ hes).all) _)
      · exact .later .malformed
      · exact .later .malformed
      · exact .later .malformed
      · exact .later .malformed
      · exact buildDisguised_built fun g hg => h _ (.top _) g hg
  | enclosing _, _ => by
      rw [build]
      exact .ok _

theorem buildItems_built : ∀ ns : List Node, (∀ n ∈ ns, FaultsIn Q n) → ∀ b ∈ buildItems ns, Built Q b
  | [], _ => by
      rw [buildItems]
      exact List.forall_mem_nil _
  | n :: ns, h => by
      rw [buildItems]
      obtain ⟨hn, hns⟩ := List.forall_mem_cons.mp h
      exact List.forall_mem_cons.mpr ⟨build_built n hn, buildItems_built ns hns⟩

theorem buildPairs_built : ∀ ns : List Node, (∀ n ∈ ns, FaultsIn Q n) → ∀ b ∈ buildPairs ns, Built Q b
  | [], _ => by
      rw [buildPairs]
      exact List.forall_mem_nil _
  | n :: ns, h => by
      obtain ⟨hn, hns⟩ := List.forall_mem_cons.mp h
      have hrest := buildPairs_built ns hns
      unfold buildPairs
      split
      · exact List.forall_mem_nil _
      · next tag key value _ hcons =>
          cases hcons
          obtain ⟨hkey, hvalue⟩ := hn.entries _ List.mem_cons_self
          exact List.forall_mem_cons.mpr
            ⟨.map (.both (build_built key hkey) (build_built value hvalue)) _, hrest⟩
      · next hcons =>
          cases hcons
          exact List.forall_mem_cons.mpr ⟨.malformed, hrest⟩

theorem buildEntries_built : ∀ entries : List (Node × Node), FaultsInEntries Q entries →
    ∀ es, buildEntries entries = some es → BuiltEntries Q es
  | [], _, es, hes => by
      rw [buildEntries] at hes
      cases hes
      exact ⟨List.forall_mem_nil _, List.forall_mem_nil _⟩
  | (key, value) :: rest, h, es, hes => by
      obtain ⟨⟨hkey, hvalue⟩, hrest⟩ := List.forall_mem_cons.mp h
      rw [buildEntries] at hes
      split at hes
      · obtain ⟨added, hadded, hes⟩ := Option.bind_eq_some_iff.mp hes
        obtain ⟨own, hown, hes⟩ := Option.bind_eq_some_iff.mp hes
        cases hes
        have hbuilt := buildEntries_built rest hrest own hown
        exact ⟨List.forall_mem_append.mpr ⟨buildMerged_built value hvalue added hadded, hbuilt.1⟩, hbuilt.2⟩
      · obtain ⟨own, hown, hes⟩ := Option.bind_eq_some_iff.mp hes
        cases hes
        have hbuilt := buildEntries_built rest hrest own hown
        refine ⟨hbuilt.1, List.forall_mem_cons.mpr ⟨?_, hbuilt.2⟩⟩
        exact .both (keyValue_built key (build_built key hkey)) (build_built value hvalue)

theorem buildMerged_built : ∀ n : Node, FaultsIn Q n → ∀ bs, buildMerged n = some bs → ∀ b ∈ bs, Built Q b
  | mapping tag entries, h, bs, hbs => by
      rw [buildMerged] at hbs
      obtain ⟨es, hes, rfl⟩ := Option.map_eq_some_iff.mp hbs
      exact (buildEntries_built entries h.entries es hes).all
  | list tag items, h, bs, hbs => by
      rw [buildMerged] at hbs
      exact buildMergedItems_built items h.item bs hbs
  | enclosing true, _, bs, hbs => by
      rw [buildMerged] at hbs
      cases hbs
      exact List.forall_mem_nil _
  | enclosing false, _, bs, hbs => by
      cases hbs
  | scalar _ _, _, bs, hbs => by
      cases hbs

theorem buildMergedItems_built : ∀ ns : List Node, (∀ n ∈ ns, FaultsIn Q n) →
    ∀ bs, buildMergedItems ns = some bs → ∀ b ∈ bs, Built Q b
  | [], _, bs, hbs => by
      rw [buildMergedItems] at hbs
      cases hbs
      exact List.forall_mem_nil _
  | n :: ns, h, bs, hbs => by
      obtain ⟨hn, hns⟩ := List.forall_mem_cons.mp h
      have hrest := buildMergedItems_built ns hns
      unfold buildMergedItems at hbs
      split at hbs
      · cases hbs
        exact List.forall_mem_nil _
      · next tag entries _ hcons =>
          cases hcons
          obtain ⟨es, hes, hbs⟩ := Option.bind_eq_some_iff.mp hbs
          obtain ⟨more, hmore, hbs⟩ := Option.bind_eq_some_iff.mp hbs
          cases hbs
          exact List.forall_mem_append.mpr
            ⟨hrest more hmore, (buildEntries_built entries hn.entries es hes).all⟩
      · next hcons =>
          cases hcons
          exact hrest bs hbs
      · cases hbs

end

end Node

/-- A document that has no value: one of its tokens is broken, or a node in its tree is unvalued. -/
inductive IsUnvalued (text : List Char) (g : Fault) : Prop
  | token (tokens : List Token) (htokens : Token.ofText text = .ok tokens) (hbroken : .broken g ∈ tokens)
      (hg : g.IsLexical)
  | node (tokens : List Token) (tree n : Node) (htokens : Token.ofText text = .ok tokens)
      (htree : Node.ofTokens tokens = .ok (some tree)) (hn : Node.Occurs n tree) (hg : n.IsUnvalued g)

/-- Reading a text ends in a fault only if its document has no value. -/
theorem read_fails (text : List Char) :
    OnlyFails (fun e => ∀ g, e = .fault g → IsUnvalued text g) (read text) := by
  have htext := Token.ofText_ends text
  refine .bind_of_ok (htext.fails.mono fun e he g hg => ?_) fun tokens htokens => ?_
  · rw [he] at hg
    cases hg
  refine .bind_of_ok ((Node.ofTokens_fails tokens).mono fun e he g hg => ?_) fun tree htree => ?_
  · exact .token tokens htokens (he g hg) (htext.result tokens htokens g (he g hg))
  cases tree with
  | none => exact .ok _
  | some n =>
      have hfaults : n.FaultsIn (IsUnvalued text) := fun m hm g hg => .node tokens n m htokens htree hm hg
      exact .mapError (Node.build_built n hfaults)

end CatalogSteward.Yaml
