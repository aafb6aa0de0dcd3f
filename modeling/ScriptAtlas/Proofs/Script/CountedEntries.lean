import ScriptAtlas.Proofs.Line.Classification
import ScriptAtlas.Proofs.Outline.BlankLines
import ScriptAtlas.Proofs.Script.Forest

/-!
Counting the entries of options blocks. Whether the lines directly under an options
block count as its entries changes what these lines are, but an entry heads no
options block of its own, and a line under it asks for no more than that. So two
readings of a script that differ in this choice place all lines alike: what is left
of a node that says only whether it heads an options block is the same
(`Node.skeleton`, `skeleton_parse`), and no other node changes at all
(`parse_counting_entries`).
-/
namespace ScriptAtlas

/-! ### Skeletons -/

/-- A kind as far as the lines below it are concerned. -/
def Kind.skeleton (k : Kind) : Kind := if k = .options then .options else .statement

theorem Kind.skeleton_eq_iff {k : Kind} : k.skeleton = .options ↔ k = .options := by
  rw [skeleton]
  split <;> simp_all

def Block.skeleton (b : Block) : Block := { b with kind := b.kind.skeleton }

/-- The node without what a line is, except for the head of an options block. -/
def Node.skeleton (n : Node) : Node :=
  { n with
    construct := if n.kind = .options then .options else .statement
    comment := none }

theorem Node.kind_skeleton (n : Node) : n.skeleton.kind = n.kind.skeleton := by
  rw [Node.kind, skeleton, Kind.skeleton]
  split <;> rfl

theorem Node.keepsLinks_skeleton : Tree.KeepsLinks Node.skeleton := ⟨fun _ => rfl, fun _ _ => rfl⟩

/-- Two nodes stand for the same line in the same place, whatever the line is. -/
structure Node.SamePlace (n m : Node) : Prop where
  raw : n.raw = m.raw
  content : n.content = m.content
  number : n.number = m.number
  depth : n.depth = m.depth
  parent : n.parent = m.parent
  children : n.children = m.children

theorem Node.skeleton_eq_iff {n m : Node} :
    n.skeleton = m.skeleton ↔ n.SamePlace m ∧ (n.kind = .options ↔ m.kind = .options) := by
  constructor
  · intro same
    have kinds := congrArg Node.kind same
    rw [kind_skeleton, kind_skeleton] at kinds
    rw [skeleton, skeleton, Node.mk.injEq, Line.mk.injEq] at same
    obtain ⟨⟨content, -, -⟩, raw, number, depth, parent, children⟩ := same
    refine ⟨⟨raw, content, number, depth, parent, children⟩, ?_⟩
    rw [← Kind.skeleton_eq_iff, kinds, Kind.skeleton_eq_iff]
  · rintro ⟨place, heads⟩
    rw [skeleton, skeleton, place.raw, place.content, place.number, place.depth, place.parent, place.children]
    simp only [heads]

/-- A node is its skeleton and what its line is. -/
theorem Node.eq_of_samePlace {n m : Node} (place : n.SamePlace m) (line : n.toLine = m.toLine) : n = m := by
  obtain ⟨raw, -, number, depth, parent, children⟩ := place
  cases n
  cases m
  simp_all

namespace Placing

variable {options options' : ParseOptions} {s s' : Placing}

theorem map_kind_eq_iff (block : Option Block) :
    block.map (·.kind) = some .options ↔ (block.map Block.skeleton).map (·.kind) = some .options := by
  cases block with
  | none => simp
  | some b => simp [Block.skeleton, Kind.skeleton_eq_iff]

/-- Placings with the same skeletons of blocks place a line in the same way, and the
    line heads an options block in both or in none. -/
theorem skeleton_node (width : options.tabWidth = options'.tabWidth)
    (alike : s.map Block.skeleton = s'.map Block.skeleton) (id : Nat) (raw : Text) :
    (s.node options id raw).skeleton = (s'.node options' id raw).skeleton := by
  have blocks : ∀ depth blank,
      (s.parentOf depth blank).map Block.skeleton = (s'.parentOf depth blank).map Block.skeleton := by
    intro depth blank
    rw [← parentOf_map (f := Block.skeleton) (fun _ => rfl), alike, parentOf_map (f := Block.skeleton) fun _ => rfl]
  have ids : ∀ depth blank, (s.parentOf depth blank).map (·.id) = (s'.parentOf depth blank).map (·.id) := by
    intro depth blank
    have same := congrArg (Option.map (·.id)) (blocks depth blank)
    rw [Option.map_map, Option.map_map] at same
    exact same
  have outside : ∀ depth blank, (s.parentOf depth blank).map (·.kind) ≠ some .options ↔
      (s'.parentOf depth blank).map (·.kind) ≠ some .options := by
    intro depth blank
    rw [ne_eq, map_kind_eq_iff, blocks, ← map_kind_eq_iff]
  have depth : (s.node options id raw).depth = (s'.node options' id raw).depth := by
    rw [node, node, width]
  rw [Node.skeleton_eq_iff]
  constructor
  · refine ⟨rfl, rfl, rfl, depth, ?_, rfl⟩
    rw [node, node, width]
    exact ids _ _
  · rw [Node.kind, Node.kind, node, node, width]
    show (Construct.ofContent ..).kind = .options ↔ (Construct.ofContent ..).kind = .options
    rw [Construct.kind_ofContent_eq_options_iff, Construct.kind_ofContent_eq_options_iff, Construct.HeadsOptions,
      Construct.HeadsOptions, outside]

theorem next_skeleton (s : Placing) (id : Nat) (raw : Text) (n : Node) :
    (s.next id raw n).map Block.skeleton = (s.map Block.skeleton).next id raw n.skeleton := by
  rw [next, next]
  split
  · rfl
  · have depth : n.skeleton.depth = n.depth := rfl
    rw [depth, enclosing_map (f := Block.skeleton) (fun _ => rfl), List.head?_map, Node.kind_skeleton]
    rfl

theorem skeleton_nodes (width : options.tabWidth = options'.tabWidth) (lines : List Text) (id : Nat)
    (alike : s.map Block.skeleton = s'.map Block.skeleton) :
    (nodes options s id lines).map Node.skeleton = (nodes options' s' id lines).map Node.skeleton := by
  induction lines generalizing s s' id with
  | nil => rfl
  | cons raw rest ih =>
    have made := skeleton_node width alike id raw
    rw [nodes, nodes, List.map_cons, List.map_cons, made]
    refine congrArg _ (ih (id + 1) ?_)
    rw [next_skeleton, next_skeleton, alike, made]

end Placing

/-- Whatever counts as an entry, the skeletons of all nodes and the links between them
    are the same. -/
theorem skeleton_parse {options options' : ParseOptions} (width : options.tabWidth = options'.tabWidth) (text : Text) :
    (parse options text).mapNodes Node.skeleton = (parse options' text).mapNodes Node.skeleton := by
  rw [parse, parse, Tree.mapNodes_ofNodes Node.keepsLinks_skeleton, Tree.mapNodes_ofNodes Node.keepsLinks_skeleton,
    Placing.skeleton_nodes width _ _ rfl]

/-- The skeletons tell which nodes stand directly under an options block. -/
theorem Tree.isInOptions_mapNodes_skeleton (t : Tree) (n : Node) :
    (t.mapNodes Node.skeleton).isInOptions n.skeleton = t.isInOptions n := by
  have parent : n.skeleton.parent = n.parent := rfl
  rw [isInOptions, isInOptions, parentKind, parentKind, parent]
  cases n.parent with
  | none => rfl
  | some p =>
    rw [Option.bind_some, Option.bind_some, get?_mapNodes, decide_eq_decide]
    cases t.get? p with
    | none => simp
    | some m => simp [Node.kind_skeleton, Kind.skeleton_eq_iff]

section
variable {options options' : ParseOptions} {text : Text} {id : Nat} {n m : Node}

theorem skeleton_of_get? (width : options.tabWidth = options'.tabWidth) (found : (parse options text).get? id = some n)
    (found' : (parse options' text).get? id = some m) : n.skeleton = m.skeleton := by
  have same := congrArg (·.get? id) (skeleton_parse width text)
  simp only [Tree.get?_mapNodes, found, found', Option.map_some, Option.some.injEq] at same
  exact same

theorem isInOptions_of_get? (width : options.tabWidth = options'.tabWidth)
    (found : (parse options text).get? id = some n) (found' : (parse options' text).get? id = some m) :
    (parse options text).isInOptions n = (parse options' text).isInOptions m := by
  rw [← Tree.isInOptions_mapNodes_skeleton, skeleton_parse width, skeleton_of_get? width found found',
    Tree.isInOptions_mapNodes_skeleton]

/-- A node that stands under no options block does not depend on what counts as an entry. -/
theorem eq_of_outside (width : options.tabWidth = options'.tabWidth) (found : (parse options text).get? id = some n)
    (found' : (parse options' text).get? id = some m) (outside : (parse options' text).isInOptions m = false) :
    n = m := by
  obtain ⟨place, -⟩ := Node.skeleton_eq_iff.mp (skeleton_of_get? width found found')
  have outside_n : (parse options text).isInOptions n = false :=
    (isInOptions_of_get? width found found').trans outside
  obtain ⟨raw, line, -, -, read⟩ := parse_line found
  obtain ⟨raw', line', -, -, read'⟩ := parse_line found'
  rw [line] at line'
  cases line'
  refine Node.eq_of_samePlace place ?_
  rw [read, read', Line.read, Line.read, Line.ofContent, Line.ofContent]
  rw [Construct.ofContent_of_outside (of_decide_eq_false outside_n) (of_decide_eq_false outside)]

variable (member : n ∈ (parse options text).nodes)
include member

theorem kind_eq_option_iff_of_mem_parse :
    n.kind = .option ↔ (parse options text).isInOptions n = true ∧ options.classifyOptions = true := by
  rw [Node.kind, construct_of_mem_parse member, Construct.kind_ofContent_eq_option_iff, Tree.isInOptions_iff]
  rfl

/-- An options block does not stand directly under another. -/
theorem not_isInOptions_of_kind_eq_options (head : n.kind = .options) : (parse options text).isInOptions n = false := by
  rw [Node.kind, construct_of_mem_parse member, Construct.kind_ofContent_eq_options_iff] at head
  obtain ⟨-, -, outside, -⟩ := head
  exact decide_eq_false outside

end

/-- Whether the lines directly under options blocks count as entries changes these
    lines only. All lines stand in the same places, the options blocks are the same
    ones and none of them stands directly under another; all nodes but those directly
    under an options block are the same. These are the entries if entries count, and
    no node is an entry if they do not. -/
theorem parse_counting_entries (tabWidth : Nat) (text : Text) :
    (parse ⟨tabWidth, true⟩ text).roots = (parse ⟨tabWidth, false⟩ text).roots ∧
    (parse ⟨tabWidth, true⟩ text).size = (parse ⟨tabWidth, false⟩ text).size ∧
    ∀ id n m, (parse ⟨tabWidth, true⟩ text).get? id = some n → (parse ⟨tabWidth, false⟩ text).get? id = some m →
      n.SamePlace m ∧
      (parse ⟨tabWidth, true⟩ text).isInOptions n = (parse ⟨tabWidth, false⟩ text).isInOptions m ∧
      ((parse ⟨tabWidth, false⟩ text).isInOptions m = false → n = m) ∧
      (n.kind = .options ↔ m.kind = .options) ∧
      (m.kind = .options → (parse ⟨tabWidth, false⟩ text).isInOptions m = false) ∧
      (n.kind = .option ↔ (parse ⟨tabWidth, true⟩ text).isInOptions n = true) ∧
      m.kind ≠ .option := by
  have width : (⟨tabWidth, true⟩ : ParseOptions).tabWidth = (⟨tabWidth, false⟩ : ParseOptions).tabWidth := rfl
  have same := skeleton_parse width text
  refine ⟨congrArg (·.roots) same, ?_, ?_⟩
  · rw [← Tree.size_mapNodes Node.skeleton, same, Tree.size_mapNodes]
  intro id n m found found'
  have member := List.mem_of_getElem? found
  have member' := List.mem_of_getElem? found'
  obtain ⟨place, heads⟩ := Node.skeleton_eq_iff.mp (skeleton_of_get? width found found')
  refine ⟨place, isInOptions_of_get? width found found', eq_of_outside width found found', heads,
    not_isInOptions_of_kind_eq_options member', ?_, ?_⟩
  · rw [kind_eq_option_iff_of_mem_parse member]
    exact and_iff_left rfl
  · rw [ne_eq, kind_eq_option_iff_of_mem_parse member']
    rintro ⟨-, counted⟩
    cases counted

/-- An options block with a comment in it, and an event below the comment. -/
def notedEntries : Text := "options:\n  # note\n    on join:\n".toList

/-- The comment is an entry where entries count, but the event below it is the same. -/
theorem parse_counting_entries_notedEntries :
    (∃ n m, (parse ⟨4, true⟩ notedEntries).get? 1 = some n ∧ (parse ⟨4, false⟩ notedEntries).get? 1 = some m ∧
      n.SamePlace m ∧ n.kind = .option ∧ m.kind = .comment) ∧
    ∃ n, (parse ⟨4, true⟩ notedEntries).get? 2 = some n ∧ (parse ⟨4, false⟩ notedEntries).get? 2 = some n ∧
      n.parent = some 1 ∧ n.kind = .event := by
  obtain ⟨-, -, nodes⟩ := parse_counting_entries 4 notedEntries
  constructor
  · have found : ∃ n m, (parse ⟨4, true⟩ notedEntries).get? 1 = some n ∧
        (parse ⟨4, false⟩ notedEntries).get? 1 = some m ∧
        (parse ⟨4, true⟩ notedEntries).isInOptions n = true ∧ m.kind = .comment :=
      ⟨_, _, rfl, rfl, by decide +kernel, rfl⟩
    obtain ⟨n, m, found, found', nested, comment⟩ := found
    obtain ⟨place, -, -, -, -, entry, -⟩ := nodes 1 n m found found'
    exact ⟨n, m, found, found', place, entry.mpr nested, comment⟩
  · have found : ∃ n m, (parse ⟨4, true⟩ notedEntries).get? 2 = some n ∧
        (parse ⟨4, false⟩ notedEntries).get? 2 = some m ∧
        (parse ⟨4, false⟩ notedEntries).isInOptions m = false ∧ m.parent = some 1 ∧ m.kind = .event :=
      ⟨_, _, rfl, rfl, by decide +kernel, rfl, rfl⟩
    obtain ⟨n, m, found, found', outside, parent, event⟩ := found
    obtain ⟨-, -, same, -⟩ := nodes 2 n m found found'
    obtain rfl := same outside
    exact ⟨n, found, found', parent, event⟩

end ScriptAtlas
