import CatalogSteward.Proofs.Yaml.Outlines
import CatalogSteward.Yaml.Reader

/-!
# Nested mappings are read as their values

The tokens of an outline form the tree of its mapping, and the tree has the value that its names and leaves
stand for, if no name occurs twice in a mapping.
-/

namespace CatalogSteward.Yaml
open Style Lexer

/-! ### Trees -/

def Leaf.node : Leaf → Node
  | .text s => .scalar .text s
  | l => .scalar (Tag.ofPlain (l.write false 0 0)) (String.ofList (l.write false 0 0))

def Outline.nodes : Outline → List (Node × Node)
  | nil => []
  | leaf name l rest => (.scalar .text name, l.node) :: rest.nodes
  | branch name inner rest => (.scalar .text name, .mapping .mapping inner.nodes) :: rest.nodes

namespace Node

def source (ts : List Token) : Source := ⟨ts, defaultHandles, []⟩

theorem node_scalar (place : Place) (n : Nat) (plain : Bool) (text : String) (ts : List Token) :
    (node place (n + 1)).run (source (.scalar plain text :: ts)) =
      .ok (.scalar (scalarTag plain none text) text, source ts) := by
  cases place <;> rfl

theorem node_mapping {place : Place} {n : Nat} {ts rest : List Token} {entries : List (Node × Node)}
    (hplace : place ≠ .flow) (h : (blockEntries n).run (source ts) = .ok (entries, source rest)) :
    (node place (n + 1)).run (source (.blockMappingStart :: ts)) =
      .ok (.mapping .mapping entries, source rest) := by
  have hrun : (node place (n + 1)).run (source (.blockMappingStart :: ts)) =
      ((blockEntries n).run (source ts) >>= fun r => .ok (.mapping .mapping r.1, r.2)) >>=
        fun r => .ok (r.1, r.2) := by
    cases place with
    | flow => exact absurd rfl hplace
    | _ => rfl
  rw [hrun, h]
  rfl

/-- An entry whose value is there. -/
theorem blockEntries_entry {n : Nat} {k t : Token} {key value : Node} {ts rest rest' : List Token}
    {entries : List (Node × Node)} (hk : ∃ plain text, k = .scalar plain text)
    (ht : (∃ plain text, t = .scalar plain text) ∨ t = .blockMappingStart)
    (hkey : (node .mappingEntry n).run (source (k :: .value :: t :: ts)) =
      .ok (key, source (.value :: t :: ts)))
    (hvalue : (node .mappingEntry n).run (source (t :: ts)) = .ok (value, source rest))
    (hrest : (blockEntries n).run (source rest) = .ok (entries, source rest')) :
    (blockEntries (n + 1)).run (source (.key :: k :: .value :: t :: ts)) =
      .ok ((key, value) :: entries, source rest') := by
  obtain ⟨plain, text, rfl⟩ := hk
  have hrun : (blockEntries (n + 1)).run (source (.key :: .scalar plain text :: .value :: t :: ts)) =
      ((node .mappingEntry n).run (source (.scalar plain text :: .value :: t :: ts)) >>= fun r =>
        (do
          let value ←
            if ← accept .value then emptyBefore [.key, .value, .blockEnd] (node .mappingEntry n)
            else pure empty
          return (r.1, value) :: (← blockEntries n) : Parse (List (Node × Node))).run r.2) := rfl
  have hafter : (do
      let value ←
        if ← accept .value then emptyBefore [.key, .value, .blockEnd] (node .mappingEntry n) else pure empty
      return (key, value) :: (← blockEntries n) : Parse (List (Node × Node))).run
        (source (.value :: t :: ts)) =
      ((node .mappingEntry n).run (source (t :: ts)) >>= fun r =>
        (blockEntries n).run r.2 >>= fun r' => .ok ((key, r.1) :: r'.1, r'.2)) := by
    rcases ht with ⟨plain, text, rfl⟩ | rfl <;> rfl
  rw [hrun, hkey]
  refine hafter.trans ?_
  rw [hvalue]
  change ((blockEntries n).run (source rest) >>= fun r' => Except.ok ((key, value) :: r'.1, r'.2)) = _
  rw [hrest]
  rfl

theorem node_leaf (l : Leaf) :
    (∃ plain text, l.token = .scalar plain text) ∧ ∀ (place : Place) (n : Nat) (ts : List Token),
      (node place (n + 1)).run (source (l.token :: ts)) = .ok (l.node, source ts) := by
  cases l with
  | text s =>
      refine ⟨⟨_, _, rfl⟩, fun place n ts => ?_⟩
      have htag : scalarTag (quotesOf s.toList == .none) none s = .text := by
        cases hquotes : quotesOf s.toList with
        | none =>
            have hplain := of_quotesOf_none hquotes
            simp only [allowsPlain, Bool.and_eq_true, beq_iff_eq] at hplain
            exact hplain.2
        | _ => rfl
      rw [Leaf.token, node_scalar, htag]
      rfl
  | _ =>
      refine ⟨⟨_, _, rfl⟩, fun place n ts => (node_scalar place n true _ ts).trans ?_⟩
      rw [scalarTag, if_pos rfl, String.toList_ofList]
      rfl

theorem blockEntries_outline {o : Outline} {n : Nat} (hn : o.tokens.length + 1 < n) (rest : List Token) :
    (blockEntries n).run (source (o.tokens ++ .blockEnd :: rest)) = .ok (o.nodes, source rest) := by
  induction o generalizing n rest with
  | nil =>
      obtain ⟨n, rfl⟩ := Nat.exists_eq_add_one_of_ne_zero (Nat.ne_of_gt (Nat.zero_lt_of_lt hn))
      rfl
  | leaf name l more ih =>
      obtain ⟨n, rfl⟩ : ∃ m, n = m + 2 := ⟨n - 2, by omega⟩
      obtain ⟨hname, hkey⟩ := node_leaf (.text name)
      obtain ⟨hscalar, hvalue⟩ := node_leaf l
      simp only [Outline.tokens, List.length_append, List.length_cons] at hn
      have hmore := ih (n := n + 1) (by omega) rest
      exact blockEntries_entry hname (.inl hscalar) (hkey _ n _) (hvalue _ n _) hmore
  | branch name inner more ihInner ih =>
      obtain ⟨n, rfl⟩ : ∃ m, n = m + 2 := ⟨n - 2, by omega⟩
      obtain ⟨hname, hkey⟩ := node_leaf (.text name)
      simp only [Outline.tokens, List.length_append, List.length_cons] at hn
      have hinner := ihInner (n := n) (by omega) (more.tokens ++ .blockEnd :: rest)
      have hentry := blockEntries_entry hname (.inr rfl) (hkey _ n _) (node_mapping (by decide) hinner)
        (ih (n := n + 1) (by omega) rest)
      simpa [Outline.tokens, Outline.nodes, Leaf.node] using hentry

/-- The tokens of an outline form the tree of its mapping. -/
theorem ofTokens_outline (o : Outline) :
    ofTokens (.blockMappingStart :: o.tokens ++ [.blockEnd]) = .ok (some (.mapping .mapping o.nodes)) := by
  have hrun (ts : List Token) : stream.run (source (.blockMappingStart :: ts)) =
      ((node .block (2 * (ts.length + 1) + 2)).run (source (.blockMappingStart :: ts)) >>= fun r =>
        (do
          modify fun s => { s with tokens := s.tokens.dropWhile (· == .documentEnd) }
          if (← peek).isNone then return some r.1 else fail : Parse (Option Node)).run r.2) := rfl
  have hentries := blockEntries_outline (o := o)
    (n := 2 * ((o.tokens ++ [Token.blockEnd]).length + 1) + 1) (by rw [List.length_append]; omega) []
  have hstream := hrun (o.tokens ++ [.blockEnd])
  rw [node_mapping (by decide) hentries] at hstream
  rw [ofTokens, List.cons_append]
  exact congrArg (Except.map (·.1)) hstream

end Node

/-! ### Values -/

def Leaf.value : Leaf → Value
  | .null => .null
  | .bool b => .bool b
  | .int n => .int n
  | .real x => .real x
  | .text s => .text s

/-- A leaf whose written form stands for it. -/
def Leaf.IsRead (l : Leaf) : Prop := l.node.build = .ok l.value

theorem Leaf.isRead_text (s : String) : (Leaf.text s).IsRead := rfl

theorem sameKey_text (s t : String) : Value.sameKey (.text s) (.text t) = (s == t) := rfl

theorem insert_new {entries : List (Value × Value)} {key : Value}
    (h : ∀ e ∈ entries, e.1.sameKey key = false) (value : Value) :
    Value.insert entries key value = entries ++ [(key, value)] := by
  induction entries with
  | nil => rfl
  | cons e entries ih =>
      obtain ⟨he, hentries⟩ := List.forall_mem_cons.mp h
      rw [Value.insert, he, if_neg Bool.false_ne_true, ih hentries, List.cons_append]

section
variable {α : Type} (name : α → String) (value : α → Value)

def textEntry (x : α) : Value × Value := (.text (name x), value x)

theorem foldl_insert (xs ys : List α) (h : ((ys ++ xs).map name).Nodup) :
    (xs.map (textEntry name value)).foldl (fun entries e => Value.insert entries e.1 e.2)
      (ys.map (textEntry name value)) = (ys ++ xs).map (textEntry name value) := by
  induction xs generalizing ys with
  | nil => rw [List.append_nil]; rfl
  | cons x xs ih =>
      have hnew : ∀ e ∈ ys.map (textEntry name value), e.1.sameKey (.text (name x)) = false := by
        intro e he
        obtain ⟨y, hy, rfl⟩ := List.mem_map.mp he
        rw [List.map_append, List.nodup_append] at h
        exact beq_false_of_ne (h.2.2 _ (List.mem_map_of_mem hy) _ List.mem_cons_self)
      have hmore : ((ys ++ [x] ++ xs).map name).Nodup := by rwa [List.append_assoc]
      rw [List.map_cons, List.foldl_cons, textEntry, insert_new hnew]
      have hstep := ih (ys ++ [x]) hmore
      rwa [List.map_append, List.append_assoc] at hstep

/-- Entries whose keys are different texts are kept as they are. -/
theorem mappingOf_texts {xs : List α} (h : (xs.map name).Nodup) :
    Node.mappingOf (xs.map (textEntry name value)) = .mapping (xs.map (textEntry name value)) :=
  congrArg Value.mapping (foldl_insert name value xs [] h)

end

/-- The names of a mapping with their values. -/
def Outline.entries : Outline → List (String × Value)
  | nil => []
  | leaf name l rest => (name, l.value) :: rest.entries
  | branch name inner rest => (name, .mapping (inner.entries.map (textEntry Prod.fst Prod.snd))) :: rest.entries

def Outline.value (o : Outline) : Value := .mapping (o.entries.map (textEntry Prod.fst Prod.snd))

/-- What an outline holds is found again: no name occurs twice in a mapping, and each leaf stands for its
value. -/
def Outline.IsKept : Outline → Prop
  | nil => True
  | leaf name l rest => name ∉ rest.entries.map (·.1) ∧ l.IsRead ∧ rest.IsKept
  | branch name inner rest => name ∉ rest.entries.map (·.1) ∧ inner.IsKept ∧ rest.IsKept

theorem Outline.nodup_names {o : Outline} (h : o.IsKept) : (o.entries.map (·.1)).Nodup := by
  induction o with
  | nil => exact List.nodup_nil
  | leaf name l rest ih => exact List.nodup_cons.mpr ⟨h.1, ih h.2.2⟩
  | branch name inner rest _ ih => exact List.nodup_cons.mpr ⟨h.1, ih h.2.2⟩

namespace Node

theorem buildEntries_text {name : String} {n : Node} {value : Value} {nodes : List (Node × Node)}
    {own : List (Build (Value × Value))} (hvalue : n.build = .ok value)
    (hrest : buildEntries nodes = some ⟨[], own⟩) :
    buildEntries ((.scalar .text name, n) :: nodes) = some ⟨[], .ok (.text name, value) :: own⟩ := by
  have hkey : ¬(scalar Tag.text name).tag = .merge := fun h => Tag.noConfusion h
  rw [buildEntries, if_neg hkey, hrest, hvalue]
  rfl

theorem all_ok {α β : Type} (f : α → β) (xs : List α) : Build.all (xs.map fun x => .ok (f x)) = .ok (xs.map f) := by
  induction xs with
  | nil => rfl
  | cons x xs ih =>
      rw [List.map_cons, Build.all, ih]
      rfl

/-- A mapping whose keys are different texts has the values of its nodes. -/
theorem build_mapping {nodes : List (Node × Node)} {entries : List (String × Value)}
    (h : buildEntries nodes = some ⟨[], entries.map fun e => .ok (textEntry Prod.fst Prod.snd e)⟩)
    (hnames : (entries.map (·.1)).Nodup) :
    (Node.mapping .mapping nodes).build = .ok (.mapping (entries.map (textEntry Prod.fst Prod.snd))) := by
  simp only [build, h, Entries.all, List.nil_append, all_ok]
  exact congrArg Except.ok (mappingOf_texts Prod.fst Prod.snd hnames)

theorem buildEntries_outline {o : Outline} (h : o.IsKept) :
    buildEntries o.nodes = some ⟨[], o.entries.map fun e => .ok (textEntry Prod.fst Prod.snd e)⟩ := by
  induction o with
  | nil => rfl
  | leaf name l rest ih => exact buildEntries_text h.2.1 (ih h.2.2)
  | branch name inner rest ihInner ih =>
      obtain ⟨-, hinner, hrest⟩ := h
      exact buildEntries_text (build_mapping (ihInner hinner) (Outline.nodup_names hinner)) (ih hrest)

end Node

/-! ### Documents -/

/-- A written document is read back as the values of its outline. -/
theorem Outline.read_write {o : Outline} (hfits : o.Fits 0) (hempty : o.isEmpty = false) (hkept : o.IsKept) :
    read (write o.tree).toList = .ok o.value := by
  have hbuild := Node.build_mapping (Node.buildEntries_outline hkept) (nodup_names hkept)
  rw [read, tokens_write hfits hempty]
  dsimp only [bind, Except.bind]
  rw [Node.ofTokens_outline]
  exact congrArg (Except.mapError Delayed.problem) hbuild

end CatalogSteward.Yaml
