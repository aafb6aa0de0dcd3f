import ScriptAtlas.Proofs.Outline.Entries
import ScriptAtlas.Proofs.Script.FollowedBy
import ScriptAtlas.Symbol.Basic

/-!
Top-level blocks. Whatever is read off a tree node by node, from the kinds of nodes
and of their parents, is read off two trees one after the other in the same way: the
outline (`Outline.ofTree_followedBy`) and the symbols (`Tree.symbols_followedBy`) of
the first come before those of the second. So the blocks at the top of a script do
not depend on each other (`parse_append_block`).
-/
namespace ScriptAtlas

/-! ### Outlines -/

namespace Outline

mutual

/-- The item with all below it, some lines later. -/
def Item.later (lines : Nat) : Item → Item
  | ⟨label, kind, line, children⟩ => ⟨label, kind, line + lines, laterAll lines children⟩

/-- The items of a list with all below them, some lines later. -/
def laterAll (lines : Nat) : List Item → List Item
  | [] => []
  | item :: rest => item.later lines :: laterAll lines rest

end

theorem laterAll_eq_map (lines : Nat) (items : List Item) : laterAll lines items = items.map (·.later lines) := by
  induction items with
  | nil => rfl
  | cons item rest ih => rw [laterAll, ih, List.map_cons]

variable {t u : Tree}

/-- What follows a tree does not change the items of its nodes. -/
theorem itemsUnder_followedBy_left (left : t.Linked) (right : u.Linked) :
    ∀ id n, t.get? id = some n → ∀ parent, itemsUnder (t.followedBy u) parent id = itemsUnder t parent id := by
  refine left.induction fun id n found ih parent => ?_
  have at_id := (Tree.get?_followedBy_left u (Tree.get?_lt found)).trans found
  have below : n.children.flatMap (itemsUnder (t.followedBy u) (some n.kind)) =
      n.children.flatMap (itemsUnder t (some n.kind)) := by
    refine List.flatMap_congr fun c child => ?_
    obtain ⟨m, at_c, up⟩ := (left.mem_children found).mp child
    exact ih c m at_c up (some n.kind)
  rw [itemsUnder_eq (left.followedBy right) at_id, itemsUnder_eq left found, below]

/-- What a tree follows changes the items of its nodes in nothing but their lines. -/
theorem itemsUnder_followedBy_right (left : t.Linked) (right : u.Linked) :
    ∀ id n, u.get? id = some n → ∀ parent,
      itemsUnder (t.followedBy u) parent (id + t.size) = (itemsUnder u parent id).map (·.later t.size) := by
  refine right.induction fun id n found ih parent => ?_
  have at_id : (t.followedBy u).get? (id + t.size) = some (n.later t.size) := by
    rw [Tree.get?_followedBy_right, found, Option.map_some]
  have below : (n.later t.size).children.flatMap (itemsUnder (t.followedBy u) (some n.kind)) =
      (n.children.flatMap (itemsUnder u (some n.kind))).map (·.later t.size) := by
    rw [Node.later, List.flatMap_map, List.map_flatMap]
    refine List.flatMap_congr fun c child => ?_
    obtain ⟨m, at_c, up⟩ := (right.mem_children found).mp child
    exact ih c m at_c up (some n.kind)
  have kind : (n.later t.size).kind = n.kind := rfl
  rw [itemsUnder_eq (left.followedBy right) at_id, itemsUnder_eq right found, kind, below]
  split
  · rw [List.map_singleton, Item.later, laterAll_eq_map]
    rfl
  · rfl

/-- The outline of two trees one after the other is that of the first and then that
    of the second. -/
theorem ofTree_followedBy (left : t.Linked) (right : u.Linked) :
    ofTree (t.followedBy u) = ofTree t ++ (ofTree u).map (·.later t.size) := by
  have first : t.roots.flatMap (itemsUnder (t.followedBy u) none) = t.roots.flatMap (itemsUnder t none) := by
    refine List.flatMap_congr fun root top => ?_
    obtain ⟨n, found, -⟩ := left.mem_roots.mp top
    exact itemsUnder_followedBy_left left right root n found none
  have second : (u.roots.map (· + t.size)).flatMap (itemsUnder (t.followedBy u) none) =
      (u.roots.flatMap (itemsUnder u none)).map (·.later t.size) := by
    rw [List.flatMap_map, List.map_flatMap]
    refine List.flatMap_congr fun root top => ?_
    obtain ⟨n, found, -⟩ := right.mem_roots.mp top
    exact itemsUnder_followedBy_right left right root n found none
  rw [ofTree_eq, ofTree_eq, ofTree_eq, ← first, ← second, ← List.flatMap_append]
  rfl

end Outline

/-! ### Symbols -/

/-- The symbol as a line some lines later declares it. -/
def Symbol.later (lines : Nat) : Symbol → Symbol
  | function signature line => function signature (line + lines)
  | command name line => command name (line + lines)
  | event name line => event name (line + lines)
  | «variable» name fromOption line => «variable» name fromOption (line + lines)
  | option name line => option name (line + lines)

namespace Symbol

theorem declaredBy?_later (n : Node) (lines : Nat) :
    declaredBy? (n.later lines) = (declaredBy? n).map (·.later lines) := by
  have same : (n.later lines).construct = n.construct := rfl
  rw [declaredBy?, declaredBy?, same]
  split
  · rfl
  · rfl
  · rfl
  · split <;> rfl
  · rfl

theorem optionOf?_later (n : Node) (lines : Nat) :
    optionOf? (n.later lines) = (optionOf? n).map (·.later lines) := by
  have content : (n.later lines).content = n.content := rfl
  have blank : (n.later lines).isBlank = n.isBlank := rfl
  have kind : (n.later lines).kind = n.kind := rfl
  rw [optionOf?, optionOf?, content, blank, kind]
  split
  · rfl
  · cases Text.cutAt ':' (Comment.code n.content) with
    | none => rfl
    | some parts =>
      obtain ⟨key, rest⟩ := parts
      by_cases empty : (Text.trim key).isEmpty = true <;> simp [empty, Symbol.later, Node.later]

theorem ofNode?_later (inOptions : Bool) (n : Node) (lines : Nat) :
    ofNode? inOptions (n.later lines) = (ofNode? inOptions n).map (·.later lines) := by
  rw [ofNode?, ofNode?, declaredBy?_later, optionOf?_later]
  cases declaredBy? n with
  | some s => rfl
  | none => cases inOptions <;> rfl

end Symbol

namespace Tree

variable {t u : Tree} {n : Node}

theorem isInOptions_followedBy_left (left : t.Linked) (member : n ∈ t.nodes) :
    (t.followedBy u).isInOptions n = t.isInOptions n := by
  rw [isInOptions, isInOptions, parentKind, parentKind]
  cases up : n.parent with
  | none => rfl
  | some p =>
    obtain ⟨id, found⟩ := List.getElem?_of_mem member
    have inside : p < t.size := Nat.lt_trans (left.earlier id n p found up) (get?_lt found)
    rw [Option.bind_some, Option.bind_some, get?_followedBy_left u inside]

theorem isInOptions_followedBy_right (t u : Tree) (n : Node) :
    (t.followedBy u).isInOptions (n.later t.size) = u.isInOptions n := by
  rw [isInOptions, isInOptions, parentKind, parentKind, Node.later]
  cases up : n.parent with
  | none => rfl
  | some p =>
    rw [Option.map_some, Option.bind_some, Option.bind_some, get?_followedBy_right, Option.map_map]
    rfl

/-- The symbols of two trees one after the other are those of the first and then
    those of the second. -/
theorem symbols_followedBy (left : t.Linked) (u : Tree) :
    (t.followedBy u).symbols = t.symbols ++ u.symbols.map (·.later t.size) := by
  have first : t.nodes.filterMap (fun n => Symbol.ofNode? ((t.followedBy u).isInOptions n) n) = t.symbols := by
    refine List.filterMap_congr fun n member => ?_
    rw [isInOptions_followedBy_left left member]
  have second : (u.nodes.map (·.later t.size)).filterMap
      (fun n => Symbol.ofNode? ((t.followedBy u).isInOptions n) n) = u.symbols.map (·.later t.size) := by
    rw [List.filterMap_map, symbols, List.map_filterMap]
    refine List.filterMap_congr fun n _ => ?_
    rw [Function.comp_apply, isInOptions_followedBy_right, Symbol.ofNode?_later]
  rw [← first, ← second, ← List.filterMap_append]
  rfl

end Tree

/-! ### Blocks at the top of a script -/

/-- Top-level blocks are independent. Where a text that ends in a line break goes on
    with a line at the top, the tree, the outline and the symbols are those of the
    text and after them those of the rest, as many lines later as the text has. -/
theorem parse_append_block (options : ParseOptions) (text more line : Text) (broken : text.getLast? = some '\n')
    (first : (sourceLines more).head? = some line) (top : Placing.AtTop options line) :
    parse options (text ++ more) = (parse options text).followedBy (parse options more) ∧
    Outline.ofTree (parse options (text ++ more)) =
      Outline.ofTree (parse options text) ++
        (Outline.ofTree (parse options more)).map (·.later (parse options text).size) ∧
    (parse options (text ++ more)).symbols =
      (parse options text).symbols ++ (parse options more).symbols.map (·.later (parse options text).size) := by
  have whole := parse_append_of_top broken first top
  refine ⟨whole, ?_, ?_⟩
  · rw [whole, Outline.ofTree_followedBy (linked_parse options text) (linked_parse options more)]
  · rw [whole, Tree.symbols_followedBy (linked_parse options text)]

/-- The options block that follows an open event and a blank line is placed as if it
    stood alone, three lines later. -/
theorem parse_append_block_options :
    parse { classifyOptions := true } "on join:\n  wait\n\noptions:\n  a: b\n".toList =
      (parse { classifyOptions := true } "on join:\n  wait\n\n".toList).followedBy
        (parse { classifyOptions := true } "options:\n  a: b\n".toList) ∧
    (parse { classifyOptions := true } "on join:\n  wait\n\noptions:\n  a: b\n".toList).symbols =
      [.event "join".toList 1, .option "a".toList 5] := by
  have top : Placing.AtTop { classifyOptions := true } "options:".toList := ⟨by decide, by decide, by decide⟩
  obtain ⟨trees, -, symbols⟩ := parse_append_block { classifyOptions := true } "on join:\n  wait\n\n".toList
    "options:\n  a: b\n".toList "options:".toList rfl rfl top
  refine ⟨trees, symbols.trans ?_⟩
  decide +kernel

end ScriptAtlas
