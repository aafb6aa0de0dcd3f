import ScriptAtlas.Outline.Projection
import ScriptAtlas.Proofs.Script.Ancestry

/-!
What an outline shows. Every item stands for a line that gives structure where it
stands; read from the top downwards, the items are those of the lines that the
walk through the tree passes, in the same order, each directly under the item of
the nearest line above that gives structure (`placedAll_ofTree`). So an outline
has an item for a line exactly if the line gives structure (`exists_item_iff`).
-/
namespace ScriptAtlas

/-- Whether a node gives structure where it stands. -/
def Tree.isShown (t : Tree) (n : Node) : Bool := Outline.isStructural (t.parentKind n) n.kind

theorem Tree.parentKind_of_parent {t : Tree} {n m : Node} {p : Nat} (up : n.parent = some p)
    (found : t.get? p = some m) : t.parentKind n = some m.kind := by
  rw [parentKind, up, Option.bind_some, found, Option.map_some]

namespace Outline

/-- The item without those below it. -/
def Item.bare (item : Item) : Item := { item with children := [] }

/-- The item of a line without those below it. -/
def bareItem (n : Node) : Item := ⟨labelOf n.construct n.content, n.kind, n.number, []⟩

/-- The item of a node that is shown, without those below it. -/
def bareItemAt? (t : Tree) (id : Nat) : Option Item :=
  (t.get? id).bind fun n => if t.isShown n then some (bareItem n) else none

/-- The items of a node under a line of a given kind. -/
def itemsUnder (t : Tree) (parent : Option Kind) (id : Nat) : List Item :=
  ((t.fold itemsOf id).map (· parent)).getD []

variable {t : Tree}

theorem itemsUnder_eq (linked : t.Linked) {id : Nat} {n : Node} (found : t.get? id = some n)
    (parent : Option Kind) :
    itemsUnder t parent id =
      if isStructural parent n.kind then
        [⟨labelOf n.construct n.content, n.kind, n.number, n.children.flatMap (itemsUnder t (some n.kind))⟩]
      else n.children.flatMap (itemsUnder t (some n.kind)) := by
  rw [itemsUnder, linked.fold_eq _ found, Option.map_some, Option.getD_some, itemsOf, Tree.flatMap_filterMap]
  rfl

theorem ofTree_eq : ofTree t = t.roots.flatMap (itemsUnder t none) := by
  rw [ofTree, Tree.foldRoots, Tree.flatMap_filterMap]
  rfl

/-! ### Items and the items they stand under -/

mutual

/-- An item and all below it, each before those below it, with the item that it
    stands directly under, if there is one. Neither comes with those below it. -/
def Item.placed (above : Option Item) : Item → List (Option Item × Item)
  | ⟨label, kind, line, children⟩ =>
    (above, ⟨label, kind, line, []⟩) :: placedAll (some ⟨label, kind, line, []⟩) children

/-- The items of a list and all below them, each with the item that it stands under. -/
def placedAll (above : Option Item) : List Item → List (Option Item × Item)
  | [] => []
  | item :: rest => item.placed above ++ placedAll above rest

end

mutual

theorem Item.map_snd_placed (above : Option Item) : ∀ item : Item,
    (item.placed above).map (·.2) = item.preorder.map Item.bare
  | ⟨label, kind, line, children⟩ => by
    rw [Item.placed, Item.preorder, List.map_cons, List.map_cons, map_snd_placedAll]
    rfl

theorem map_snd_placedAll (above : Option Item) : ∀ items : List Item,
    (placedAll above items).map (·.2) = (preorderAll items).map Item.bare
  | [] => rfl
  | item :: rest => by
    rw [placedAll, preorderAll, List.map_append, List.map_append, item.map_snd_placed, map_snd_placedAll]

end

theorem placedAll_append (above : Option Item) (items others : List Item) :
    placedAll above (items ++ others) = placedAll above items ++ placedAll above others := by
  induction items with
  | nil => rfl
  | cons item rest ih => rw [List.cons_append, placedAll, ih, placedAll, List.append_assoc]

theorem placedAll_flatMap {α : Type} (above : Option Item) (xs : List α) (f : α → List Item) :
    placedAll above (xs.flatMap f) = xs.flatMap fun x => placedAll above (f x) := by
  induction xs with
  | nil => rfl
  | cons x rest ih => rw [List.flatMap_cons, placedAll_append, ih, List.flatMap_cons]

/-- The item of the nearest node above a node that is shown. -/
def itemAbove? (t : Tree) (id : Nat) : Option Item :=
  ((t.ancestors id).find? fun e => t.isShown e.2).map fun e => bareItem e.2

theorem itemAbove?_of_root {id : Nat} {n : Node} (found : t.get? id = some n) (root : n.parent = none) :
    itemAbove? t id = none := by
  rw [itemAbove?, Tree.ancestors_of_root found root]
  rfl

/-- A node stands under its parent, or under what that stands under. -/
theorem itemAbove?_of_parent (linked : t.Linked) {id p : Nat} {n m : Node} (found : t.get? id = some n)
    (up : n.parent = some p) (above : t.get? p = some m) :
    itemAbove? t id = if t.isShown m then some (bareItem m) else itemAbove? t p := by
  rw [itemAbove?, linked.ancestors_of_parent found up above, Tree.way, List.find?_cons]
  cases shown : t.isShown m with
  | true => simp
  | false => simp [itemAbove?]

/-- The item of a node that is shown, with the item that it stands under. -/
def placedItemAt? (t : Tree) (id : Nat) : Option (Option Item × Item) :=
  (t.get? id).bind fun n => if t.isShown n then some (itemAbove? t id, bareItem n) else none

/-- The items of a node, from the top downwards, are those of the nodes below it
    that are shown, each under the nearest node above it that is shown. -/
theorem placedAll_itemsUnder (linked : t.Linked) :
    ∀ id n, t.get? id = some n →
      placedAll (itemAbove? t id) (itemsUnder t (t.parentKind n) id) = (t.subtree id).filterMap (placedItemAt? t) := by
  -- A node that is not shown hands on the items below it as they are.
  refine linked.induction fun id n found ih => ?_
  have below : ∀ above, (∀ c ∈ n.children, itemAbove? t c = above) →
      placedAll above (n.children.flatMap (itemsUnder t (some n.kind))) =
        (n.children.flatMap t.subtree).filterMap (placedItemAt? t) := by
    intro above under
    rw [placedAll_flatMap, List.filterMap_flatMap]
    refine List.flatMap_congr fun c child => ?_
    obtain ⟨m, at_c, up⟩ := (linked.mem_children found).mp child
    rw [← ih c m at_c up, Tree.parentKind_of_parent up found, under c child]
  have under : ∀ c ∈ n.children,
      itemAbove? t c = if t.isShown n then some (bareItem n) else itemAbove? t id := by
    intro c child
    obtain ⟨m, at_c, up⟩ := (linked.mem_children found).mp child
    exact itemAbove?_of_parent linked at_c up found
  have item : placedItemAt? t id = if t.isShown n then some (itemAbove? t id, bareItem n) else none := by
    rw [placedItemAt?, found, Option.bind_some]
  rw [itemsUnder_eq linked found, linked.subtree_eq found, List.filterMap_cons, item, ← below _ under, Tree.isShown]
  cases isStructural (t.parentKind n) n.kind with
  | true => simp [placedAll, Item.placed, bareItem]
  | false => rfl

/-- The items of an outline, from the top downwards, are those of the nodes of
    the walk that are shown, each under the nearest node above it that is shown. -/
theorem placedAll_ofTree (linked : t.Linked) :
    placedAll none (ofTree t) = t.walk.filterMap (placedItemAt? t) := by
  rw [ofTree_eq, placedAll_flatMap, Tree.walk, List.filterMap_flatMap]
  refine List.flatMap_congr fun root top => ?_
  obtain ⟨n, at_root, alone⟩ := linked.mem_roots.mp top
  have parent : t.parentKind n = none := by rw [Tree.parentKind, alone]; rfl
  rw [← placedAll_itemsUnder linked root n at_root, itemAbove?_of_root at_root alone, parent]

/-- The items of an outline, from the top downwards, are those of the nodes of
    the walk that are shown. -/
theorem map_bare_preorderAll_ofTree (linked : t.Linked) :
    (preorderAll (ofTree t)).map Item.bare = t.walk.filterMap (bareItemAt? t) := by
  rw [← map_snd_placedAll none, placedAll_ofTree linked, List.map_filterMap]
  refine List.filterMap_congr fun id _ => ?_
  rw [placedItemAt?, bareItemAt?]
  cases t.get? id with
  | none => rfl
  | some n => cases shown : t.isShown n <;> simp [shown]

/-- The items of an outline at any level are those of the nodes that are shown. -/
theorem exists_bare_item_iff (linked : t.Linked) {item : Item} :
    (∃ i ∈ preorderAll (ofTree t), i.bare = item) ↔ ∃ n ∈ t.nodes, t.isShown n = true ∧ bareItem n = item := by
  rw [← List.mem_map, map_bare_preorderAll_ofTree linked, List.mem_filterMap]
  constructor
  · rintro ⟨id, -, shown⟩
    obtain ⟨n, found, shown⟩ := Option.bind_eq_some_iff.mp shown
    split at shown
    · rename_i structural
      exact ⟨n, List.mem_of_getElem? found, structural, Option.some.inj shown⟩
    · cases shown
  · rintro ⟨n, member, structural, rfl⟩
    obtain ⟨id, found⟩ := List.getElem?_of_mem member
    exact ⟨id, linked.mem_walk found, by rw [bareItemAt?, Tree.get?, found, Option.bind_some, if_pos structural]⟩

end Outline

/-- An outline of a script has an item for a line exactly if the line gives structure. -/
theorem exists_item_iff {options : ParseOptions} {text : Text} {n : Node}
    (member : n ∈ (parse options text).nodes) :
    (∃ item ∈ Outline.preorderAll (Outline.ofTree (parse options text)), item.line = n.number) ↔
      (parse options text).isShown n = true := by
  have linked := linked_parse options text
  constructor
  · rintro ⟨item, shown, line⟩
    obtain ⟨m, other, structural, same⟩ := (Outline.exists_bare_item_iff linked).mp ⟨item, shown, rfl⟩
    have number : m.number = n.number := (congrArg Outline.Item.line same).trans line
    obtain ⟨i, at_i⟩ := List.getElem?_of_mem member
    obtain ⟨j, at_j⟩ := List.getElem?_of_mem other
    obtain ⟨-, -, -, number_i, -⟩ := parse_line at_i
    obtain ⟨-, -, -, number_j, -⟩ := parse_line at_j
    have position : j = i := by omega
    rw [position, at_i] at at_j
    exact Option.some.inj at_j ▸ structural
  · intro structural
    obtain ⟨item, shown, same⟩ := (Outline.exists_bare_item_iff linked).mpr ⟨n, member, structural, rfl⟩
    exact ⟨item, shown, congrArg Outline.Item.line same⟩

end ScriptAtlas
