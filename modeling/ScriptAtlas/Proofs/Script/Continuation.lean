import ScriptAtlas.Proofs.Script.Forest

/-!
Scripts that are continued. The lines that follow a text that ends in a line break
become nodes after those of the text (`Placing.nodes_append`). A node that comes
later is linked to earlier ones as their child at most, so nothing of it is left
among the first nodes of a tree and the links between them (`Tree.upTo_push`). The
first nodes of a script that goes on are therefore those of the script so far
(`parse_append_upTo`).
-/
namespace ScriptAtlas

/-- The lines of a script and those that follow them become nodes one after the other. -/
theorem Placing.nodes_append (options : ParseOptions) (s : Placing) (id : Nat) (lines more : List Text) :
    nodes options s id (lines ++ more) =
      nodes options s id lines ++ nodes options (after options s id lines) (id + lines.length) more := by
  induction lines generalizing s id with
  | nil => rfl
  | cons raw rest ih =>
    have next : id + 1 + rest.length = id + (rest.length + 1) := by omega
    rw [List.cons_append, nodes, ih, nodes, after, List.length_cons, next, List.cons_append]

/-- The node with those of its children that are among the first nodes. -/
def Node.upTo (n : Node) (size : Nat) : Node := { n with children := n.children.filter (· < size) }

theorem Node.upTo_addChild {size child : Nat} (later : size ≤ child) (n : Node) :
    (n.addChild child).upTo size = n.upTo size := by
  have outside : ¬ child < size := Nat.not_lt.mpr later
  simp [Node.upTo, addChild, outside]

namespace Tree

variable {t : Tree} {size : Nat}

/-- The first nodes of a tree with the links between them. -/
def upTo (t : Tree) (size : Nat) : Tree :=
  ⟨(t.nodes.take size).map (·.upTo size), t.roots.filter (· < size)⟩

/-- A node that comes later changes nothing among the first nodes. -/
theorem upTo_push (inside : size ≤ t.size) (n : Node) : (t.push n).upTo size = t.upTo size := by
  rw [push]
  cases n.parent with
  | none =>
    have outside : ¬ t.nodes.length < size := Nat.not_lt.mpr inside
    have nodes : (t.nodes ++ [n]).take size = t.nodes.take size := List.take_append_of_le_length inside
    rw [upTo, upTo, nodes]
    simp [outside]
  | some p =>
    have modified : size ≤ (t.nodes.modify p (·.addChild t.nodes.length)).length := by
      rw [List.length_modify]
      exact inside
    rw [upTo, upTo, List.take_append_of_le_length modified, List.take_modify,
      map_modify_of_comm (h := id) (Node.upTo_addChild inside), List.modify_id]

theorem upTo_ofNodes_append (nodes more : List Node) :
    (ofNodes (nodes ++ more)).upTo nodes.length = (ofNodes nodes).upTo nodes.length := by
  induction more using List.reverseRecOn with
  | nil => rw [List.append_nil]
  | append_singleton more n ih =>
    have inside : nodes.length ≤ (ofNodes (nodes ++ more)).size := by
      rw [size_ofNodes, List.length_append]
      exact Nat.le_add_right ..
    rw [← List.append_assoc, ofNodes_concat, upTo_push inside, ih]

/-- All links of a linked tree are between its nodes. -/
theorem Linked.upTo_size (linked : t.Linked) : t.upTo t.size = t := by
  have within : ∀ parent, (t.idsUnder parent).filter (· < t.size) = t.idsUnder parent := by
    intro parent
    refine List.filter_eq_self.mpr fun id member => ?_
    obtain ⟨n, found, -⟩ := mem_idsUnder.mp member
    exact decide_eq_true (get?_lt found)
  have kept : ∀ n ∈ t.nodes, n.upTo t.size = n := by
    intro n member
    obtain ⟨id, found⟩ := List.getElem?_of_mem member
    have children := linked.children id n found
    rw [Node.upTo, children, within, ← children]
  have whole : t.nodes.take t.size = t.nodes := List.take_length
  rw [upTo, whole, List.map_congr_left kept, List.map_id', linked.roots, within, ← linked.roots]

end Tree

/-- Later lines never change earlier ones. Where a text that ends in a line break goes
    on, the first nodes with the links between them are the tree of the text alone. -/
theorem parse_append_upTo (options : ParseOptions) (text more : Text) (broken : text.getLast? = some '\n') :
    (parse options (text ++ more)).upTo (parse options text).size = parse options text := by
  have size : (parse options text).size = (Placing.nodes options {} 0 (sourceLines text)).length :=
    Tree.size_ofNodes _
  calc (parse options (text ++ more)).upTo (parse options text).size
    _ = (parse options text).upTo (parse options text).size := by
      rw [size, parse, sourceLines_append broken, Placing.nodes_append, Tree.upTo_ofNodes_append, parse]
    _ = parse options text := (linked_parse options text).upTo_size

/-- The last line of a text has a child and a sibling still to come. -/
theorem parse_append_upTo_open_block :
    ∃ text more, text.getLast? = some '\n' ∧
      ((parse {} (text ++ more)).nodes.map (·.children)) = [[2, 4], [], [3], [], []] ∧
      ((parse {} (text ++ more)).upTo 3).nodes.map (·.children) = [[2], [], []] ∧
      (parse {} (text ++ more)).upTo (parse {} text).size = parse {} text := by
  let text := "on join:\n\n  loop 3 times:\n".toList
  let more := "    wait\n  stop it".toList
  exact ⟨text, more, rfl, by decide +kernel, by decide +kernel, parse_append_upTo {} text more rfl⟩

end ScriptAtlas
