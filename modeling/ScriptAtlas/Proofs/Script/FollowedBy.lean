import Mathlib.Data.List.TakeWhile
import ScriptAtlas.Proofs.Script.Ancestry
import ScriptAtlas.Proofs.Script.Continuation

/-!
Trees one after the other. The second tree keeps its links, but its nodes come as
many lines later as the first tree has nodes (`Tree.followedBy`, `Linked.followedBy`).
A line with content that has no depth closes every open block, and what follows it
is placed as at the beginning of a script (`Placing.nodes_of_top`). So the tree of
a text that goes on with such a line is the tree of the text followed by that of
the rest (`parse_append_of_top`).
-/
namespace ScriptAtlas

/-! ### Nodes some lines later -/

/-- The node with its links, some lines later. -/
def Node.later (n : Node) (lines : Nat) : Node :=
  { n with
    number := n.number + lines
    parent := n.parent.map (· + lines)
    children := n.children.map (· + lines) }

theorem Node.addChild_later (lines child : Nat) (n : Node) :
    (n.addChild child).later lines = (n.later lines).addChild (child + lines) := by
  simp [Node.later, addChild]

namespace Tree

variable {t u : Tree} {id p : Nat}

/-- The nodes of a tree and after them those of another, with the links of both. -/
def followedBy (t u : Tree) : Tree :=
  ⟨t.nodes ++ u.nodes.map (·.later t.size), t.roots ++ u.roots.map (· + t.size)⟩

theorem size_followedBy (t u : Tree) : (t.followedBy u).size = t.size + u.size := by
  rw [followedBy, size, List.length_append, List.length_map]
  rfl

theorem get?_followedBy_left (u : Tree) (inside : id < t.size) : (t.followedBy u).get? id = t.get? id :=
  List.getElem?_append_left inside

theorem get?_followedBy_right (t u : Tree) (id : Nat) :
    (t.followedBy u).get? (id + t.size) = (u.get? id).map (·.later t.size) := by
  have beyond : t.nodes.length ≤ id + t.size := Nat.le_add_left ..
  show (t.nodes ++ u.nodes.map (·.later t.size))[id + t.size]? = _
  rw [List.getElem?_append_right beyond, List.getElem?_map, size, Nat.add_sub_cancel_right]
  rfl

theorem push_of_root (t : Tree) {n : Node} (root : n.parent = none) :
    t.push n = ⟨t.nodes ++ [n], t.roots ++ [t.nodes.length]⟩ := by
  rw [push, root]

theorem push_of_parent (t : Tree) {n : Node} (up : n.parent = some p) :
    t.push n = ⟨t.nodes.modify p (·.addChild t.nodes.length) ++ [n], t.roots⟩ := by
  rw [push, up]

/-- Appending a node to the second tree appends it to both. -/
theorem push_followedBy (t u : Tree) (n : Node) :
    (t.followedBy u).push (n.later t.size) = t.followedBy (u.push n) := by
  have length : (t.followedBy u).nodes.length = u.nodes.length + t.size := by
    rw [followedBy, List.length_append, List.length_map, Nat.add_comm]
    rfl
  cases parent : n.parent with
  | none =>
    have root : (n.later t.size).parent = none := by rw [Node.later, parent]; rfl
    rw [push_of_root _ root, push_of_root _ parent, length]
    simp [followedBy]
  | some p =>
    have up : (n.later t.size).parent = some (p + t.size) := by rw [Node.later, parent]; rfl
    have reached : (t.followedBy u).nodes.modify (p + t.size) (·.addChild (u.nodes.length + t.size)) =
        t.nodes ++ (u.nodes.modify p (·.addChild u.nodes.length)).map (·.later t.size) := by
      rw [map_modify_of_comm (h := (·.addChild (u.nodes.length + t.size))) (Node.addChild_later t.size u.nodes.length),
        Nat.add_comm p]
      exact List.modifyTailIdx_add ..
    rw [push_of_parent _ up, push_of_parent _ parent, length, reached]
    simp [followedBy]

theorem ofNodes_append_later (nodes more : List Node) :
    ofNodes (nodes ++ more.map (·.later nodes.length)) = (ofNodes nodes).followedBy (ofNodes more) := by
  induction more using List.reverseRecOn with
  | nil => simp [followedBy, ofNodes]
  | append_singleton more n ih =>
    have size := size_ofNodes nodes
    rw [List.map_append, List.map_singleton, ← List.append_assoc, ofNodes_concat, ih, ofNodes_concat, ← size,
      push_followedBy]

/-- The positions with a given parent, first among the first nodes and then among
    the later ones. -/
theorem idsUnder_followedBy (t u : Tree) (parent : Option Nat) :
    (t.followedBy u).idsUnder parent = t.idsUnder parent ++
      ((List.range u.size).filter fun id =>
        (u.get? id).map (fun n => n.parent.map (· + t.size)) = some parent).map (· + t.size) := by
  have later : (List.range u.size).map (t.size + ·) = (List.range u.size).map (· + t.size) :=
    List.map_congr_left fun id _ => Nat.add_comm t.size id
  rw [idsUnder, size_followedBy, List.range_add, later, List.filter_append, List.filter_map]
  congr 1
  · refine List.filter_congr fun id member => ?_
    rw [get?_followedBy_left u (List.mem_range.mp member)]
  · refine congrArg _ (List.filter_congr fun id _ => ?_)
    rw [Function.comp_apply, get?_followedBy_right, Option.map_map]
    rfl

/-- The roots of the second tree come after those of the first. -/
theorem idsUnder_followedBy_none (t u : Tree) :
    (t.followedBy u).idsUnder none = t.idsUnder none ++ (u.idsUnder none).map (· + t.size) := by
  rw [idsUnder_followedBy]
  congr 2
  refine List.filter_congr fun id _ => ?_
  cases u.get? id <;> simp

/-- No later node is linked to an earlier one. -/
theorem idsUnder_followedBy_left (u : Tree) (inside : p < t.size) :
    (t.followedBy u).idsUnder (some p) = t.idsUnder (some p) := by
  rw [idsUnder_followedBy]
  suffices none : (List.range u.size).filter (fun id =>
      decide ((u.get? id).map (fun n => n.parent.map (· + t.size)) = some (some p))) = [] by
    rw [none, List.map_nil, List.append_nil]
  refine List.filter_eq_nil_iff.mpr fun id _ same => ?_
  obtain ⟨n, -, up⟩ := Option.map_eq_some_iff.mp (of_decide_eq_true same)
  obtain ⟨q, -, sum⟩ := Option.map_eq_some_iff.mp up
  omega

theorem idsUnder_followedBy_right (linked : t.Linked) (u : Tree) (p : Nat) :
    (t.followedBy u).idsUnder (some (p + t.size)) = (u.idsUnder (some p)).map (· + t.size) := by
  have beyond : t.size ≤ p + t.size := Nat.le_add_left ..
  rw [idsUnder_followedBy, idsUnder_eq_nil_of_beyond linked beyond, List.nil_append, idsUnder]
  refine congrArg _ (List.filter_congr fun id _ => ?_)
  cases found : u.get? id with
  | none => simp
  | some n => cases parent : n.parent <;> simp [parent]

/-- A position among two trees is one of the first or a later one. -/
theorem exists_of_get?_followedBy {n : Node} (found : (t.followedBy u).get? id = some n) :
    id < t.size ∧ t.get? id = some n ∨
      ∃ i m, id = i + t.size ∧ n = m.later t.size ∧ u.get? i = some m := by
  rcases Nat.lt_or_ge id t.size with inside | beyond
  · rw [get?_followedBy_left u inside] at found
    exact Or.inl ⟨inside, found⟩
  · obtain ⟨i, rfl⟩ := Nat.exists_eq_add_of_le' beyond
    rw [get?_followedBy_right] at found
    obtain ⟨m, at_i, rfl⟩ := Option.map_eq_some_iff.mp found
    exact Or.inr ⟨i, m, rfl, rfl, at_i⟩

theorem Linked.followedBy (left : t.Linked) (right : u.Linked) : (t.followedBy u).Linked where
  roots := by
    rw [idsUnder_followedBy_none, ← left.roots, ← right.roots]
    rfl
  children id n found := by
    rcases exists_of_get?_followedBy found with ⟨inside, at_id⟩ | ⟨i, m, rfl, rfl, at_i⟩
    · rw [idsUnder_followedBy_left u inside]
      exact left.children id n at_id
    · rw [idsUnder_followedBy_right left, ← right.children i m at_i]
      rfl
  earlier id n p found up := by
    rcases exists_of_get?_followedBy found with ⟨-, at_id⟩ | ⟨i, m, rfl, rfl, at_i⟩
    · exact left.earlier id n p at_id up
    · obtain ⟨q, parent, rfl⟩ := Option.map_eq_some_iff.mp up
      have earlier := right.earlier i m q at_i parent
      omega

end Tree

/-! ### Lines placed later -/

/-- The block of a node some lines later. -/
def Block.later (b : Block) (lines : Nat) : Block := { b with id := b.id + lines }

namespace Placing

variable {options : ParseOptions} {s : Placing} {id lines : Nat} {raw : Text}

/-- The placing of the same blocks some lines later. -/
def later (s : Placing) (lines : Nat) : Placing := s.map (·.later lines)

theorem enclosing_later (s : Placing) (lines depth : Nat) :
    (s.later lines).enclosing depth = (s.enclosing depth).map (·.later lines) :=
  enclosing_map (f := (·.later lines)) (fun _ => rfl) s depth

theorem parentOf_later (s : Placing) (lines depth : Nat) (blank : Bool) :
    (s.later lines).parentOf depth blank = (s.parentOf depth blank).map (·.later lines) :=
  parentOf_map (f := (·.later lines)) (fun _ => rfl) s depth blank

/-- A line becomes the same node some lines later, if it is read in the same way
    and belongs to the same block. -/
theorem node_later {s' : Placing} (read : readable (id + lines + 1) raw = readable (id + 1) raw)
    (parent : ∀ depth blank, depth = depthOf options.tabWidth (readable (id + 1) raw) →
      blank = isBlankLine (readable (id + 1) raw) →
      s'.parentOf depth blank = (s.parentOf depth blank).map (·.later lines)) :
    s'.node options (id + lines) raw = (s.node options id raw).later lines := by
  rw [node, read, parent _ _ rfl rfl, node, Node.later]
  cases s.parentOf (depthOf options.tabWidth (readable (id + 1) raw)) (isBlankLine (readable (id + 1) raw)) with
  | none => simp [Nat.add_right_comm]
  | some b => simp [Nat.add_right_comm, Block.later]

theorem next_later (read : readable (id + lines + 1) raw = readable (id + 1) raw) (s : Placing) (n : Node) :
    (s.later lines).next (id + lines) raw (n.later lines) = (s.next id raw n).later lines := by
  rw [next, next, read]
  split
  · rfl
  · have depth : (n.later lines).depth = n.depth := rfl
    rw [depth, enclosing_later, later, map, List.map_cons, List.head?_map]
    rfl

/-- Lines after the first of a script become the same nodes some lines later. -/
theorem nodes_later (rest : List Text) (s : Placing) (id : Nat) (after_first : 0 < id) :
    nodes options (s.later lines) (id + lines) rest = (nodes options s id rest).map (·.later lines) := by
  induction rest generalizing s id with
  | nil => rfl
  | cons raw rest ih =>
    have read : readable (id + lines + 1) raw = readable (id + 1) raw := by
      rw [readable_of_later (by omega), readable_of_later (by omega)]
    have made : (s.later lines).node options (id + lines) raw = (s.node options id raw).later lines :=
      node_later read fun depth blank _ _ => parentOf_later s lines depth blank
    have position : id + lines + 1 = id + 1 + lines := by omega
    rw [nodes, nodes, made, next_later read, List.map_cons, position, ih _ _ (Nat.succ_pos id)]

/-- Every block is at least as deep as a line without depth. -/
theorem enclosing_zero (s : Placing) : s.enclosing 0 = [] :=
  List.dropWhile_eq_nil_iff.mpr fun _ _ => decide_eq_true (Nat.zero_le _)

/-- A line at the top of a script, whatever stands before it. -/
structure AtTop (options : ParseOptions) (raw : Text) : Prop where
  content : Text.allBlank raw = false
  flush : lineDepth options raw = 0
  unmarked : raw.head? ≠ some '\uFEFF'

/-- A line at the top and the lines after it become the same nodes after any
    lines as at the beginning of a script. -/
theorem nodes_of_top (top : AtTop options raw) (rest : List Text) (s : Placing) (lines : Nat) :
    nodes options s lines (raw :: rest) = (nodes options {} 0 (raw :: rest)).map (·.later lines) := by
  have read : ∀ number, readable number raw = raw := readable_of_unmarked top.unmarked
  have content : isBlankLine raw = false := (isBlankLine_eq raw).trans top.content
  have flush : depthOf options.tabWidth raw = 0 := (depthOf_eq ..).trans top.flush
  have depth : (node options {} 0 raw).depth = 0 := by rw [node, read]; exact flush
  -- The line closes all blocks, so it has no parent and its block is the only open one.
  have made : s.node options lines raw = (node options {} 0 raw).later lines := by
    have same : s.node options (0 + lines) raw = (node options {} 0 raw).later lines := by
      refine node_later (by rw [read, read]) fun depth blank deep shown => ?_
      rw [read, flush] at deep
      rw [read, content] at shown
      rw [deep, shown, parentOf, parentOf, enclosing_zero, enclosing_zero]
      rfl
    rwa [Nat.zero_add] at same
  have opened : ∀ (s : Placing) (id : Nat) (n : Node), n.depth = 0 →
      s.next id raw n = ⟨[⟨id, 0, n.kind⟩], none⟩ := by
    intro s id n flat
    rw [next, read, content, flat, enclosing_zero]
    rfl
  have placed : s.next lines raw ((node options {} 0 raw).later lines) =
      (next {} 0 raw (node options {} 0 raw)).later lines := by
    have flat : ((node options {} 0 raw).later lines).depth = 0 := depth
    rw [opened s lines _ flat, opened {} 0 _ depth, later, map, List.map_singleton, Block.later, Nat.zero_add]
    rfl
  have position : lines + 1 = 0 + 1 + lines := by omega
  rw [nodes, nodes, made, placed, List.map_cons, position, nodes_later rest _ _ Nat.one_pos]

end Placing

/-- A text that ends in a line break and goes on with a line at the top has the tree
    of the text, followed by that of the rest. -/
theorem parse_append_of_top {options : ParseOptions} {text more line : Text} (broken : text.getLast? = some '\n')
    (first : (sourceLines more).head? = some line) (top : Placing.AtTop options line) :
    parse options (text ++ more) = (parse options text).followedBy (parse options more) := by
  obtain ⟨rest, lines⟩ := List.head?_eq_some_iff.mp first
  have length : (Placing.nodes options {} 0 (sourceLines text)).length = 0 + (sourceLines text).length := by
    rw [Placing.length_nodes, Nat.zero_add]
  rw [parse, sourceLines_append broken, Placing.nodes_append, ← length, lines, Placing.nodes_of_top top,
    Tree.ofNodes_append_later, parse, parse, lines]

end ScriptAtlas
