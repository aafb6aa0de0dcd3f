import Mathlib.Data.List.Sort
import ScriptAtlas.Proofs.Line.Classification
import ScriptAtlas.Proofs.Outline.BlankLines
import ScriptAtlas.Proofs.Outline.Rendering
import ScriptAtlas.Proofs.Script.Walk

/-!
What a printed tree shows. Its lines are found again by their line breaks and give the
level, the kind, the number and the content of the nodes in the order of the walk
(`eq_of_treeLine`). Levels determine a forest, whatever the order of its numbers, so the
parents of the nodes are known (`map_stated_eq_of_dump`), and a line is given by its kind
and its content (`Line.eq_of_read`). Only the raw lines and the depths are lost
(`dump_parse_eq_iff`).
-/
namespace ScriptAtlas

/-! ### Lines of one kind -/

/-- What suits a line is given by its kind and its content. -/
theorem Construct.Suits.unique {options options' : ParseOptions} {parent parent' : Option Kind} {content : Text}
    {x y : Construct} (suits : Suits options parent content x) (suits' : Suits options' parent' content y)
    (kind : x.kind = y.kind) : x = y := by
  cases suits with
  | keyword k _ begins =>
    rw [k.kind_construct] at kind
    cases suits' with
    | keyword l _ begins' =>
      rw [l.kind_construct] at kind
      rw [Keyword.eq_of_kind kind]
    | entry | call | options | statement | undefined => cases k <;> cases kind
  | entry | call | options | statement | undefined =>
    cases suits' with
    | keyword l => cases l <;> cases kind
    | entry | call | options | statement | undefined => first | rfl | cases kind

/-- The construct and the comment of a line are given by its kind and its content,
    wherever and with whatever options it is read. -/
theorem Line.eq_of_read {options options' : ParseOptions} {parent parent' : Option Kind} {raw raw' : Text}
    (kind : (Line.read options parent raw).kind = (Line.read options' parent' raw').kind)
    (content : contentOf raw = contentOf raw') : Line.read options parent raw = Line.read options' parent' raw' := by
  have same : Construct.ofContent options parent (contentOf raw) =
      Construct.ofContent options' parent' (contentOf raw') := by
    have suits : Construct.Suits options' parent' (contentOf raw) (.ofContent options' parent' (contentOf raw')) := by
      rw [content]
      exact Construct.suits_ofContent options' parent' _
    exact (Construct.suits_ofContent options parent _).unique suits kind
  unfold Line.read Line.ofContent
  rw [same, content]

/-! ### All lines as an outline -/

namespace Tree
open Outline

/-- A line as an item that is labelled with its content. -/
def lineItem (n : Node) (below : List Item) : Item := ⟨n.content, n.kind, n.number, below⟩

/-- The outline of a tree in which every line has an item. -/
def wholeOutline (t : Tree) : List Item := t.foldRoots fun _ => lineItem

/-- The item of a node with all that is below it. -/
def wholeItemAt (t : Tree) (id : Nat) : List Item := (t.fold (fun _ => lineItem) id).toList

/-- The item of the parent of a node, without those below it. -/
def itemOfParent? (t : Tree) (n : Node) : Option Item := (n.parent.bind t.get?).map (lineItem · [])

/-- What a printed tree states of a node: the item of its parent and its own. -/
def statedOf (t : Tree) (n : Node) : Option Item × Item := (t.itemOfParent? n, lineItem n [])

variable {t : Tree}

theorem wholeOutline_eq (t : Tree) : t.wholeOutline = t.roots.flatMap t.wholeItemAt :=
  List.filterMap_eq_flatMap_toList ..

theorem Linked.wholeItemAt_eq (linked : t.Linked) {id : Nat} {n : Node} (found : t.get? id = some n) :
    t.wholeItemAt id = [lineItem n (n.children.flatMap t.wholeItemAt)] := by
  unfold wholeItemAt
  rw [linked.fold_eq _ found, Option.toList_some, List.filterMap_eq_flatMap_toList]

/-- The levels of the items are those of the nodes on the walk. -/
theorem Linked.levels_wholeItemAt (linked : t.Linked) :
    ∀ id n, t.get? id = some n → ∀ level, (levelledAll level (t.wholeItemAt id)).map bareAt =
      (t.walkFrom level id).map fun e => (e.1, lineItem e.2.2 []) := by
  refine linked.induction fun id n found ih level => ?_
  have below : (levelledAll (level + 1) (n.children.flatMap t.wholeItemAt)).map bareAt =
      (n.children.flatMap (t.walkFrom (level + 1))).map fun e => (e.1, lineItem e.2.2 []) := by
    rw [levelledAll_flatMap, List.map_flatMap, List.map_flatMap]
    refine List.flatMap_congr fun c child => ?_
    obtain ⟨m, at_c, up⟩ := (linked.mem_children found).mp child
    exact ih c m at_c up (level + 1)
  rw [linked.wholeItemAt_eq found, linked.walkFrom_eq found, List.map_cons, ← below]
  simp [levelledAll, Item.levelled, lineItem, bareAt, Item.bare]

theorem Linked.levels_wholeOutline (linked : t.Linked) :
    levels t.wholeOutline = t.preorder.map fun e => (e.1, lineItem e.2.2 []) := by
  unfold levels
  rw [wholeOutline_eq, preorder_eq, levelledAll_flatMap, List.map_flatMap, List.map_flatMap]
  refine List.flatMap_congr fun root top => ?_
  obtain ⟨n, at_root, -⟩ := linked.mem_roots.mp top
  exact linked.levels_wholeItemAt root n at_root 0

/-- The items stand under the items of the parents. -/
theorem Linked.placed_wholeItemAt (linked : t.Linked) :
    ∀ id n, t.get? id = some n → placedAll (t.itemOfParent? n) (t.wholeItemAt id) =
      (t.entriesAt (t.subtree id)).map fun e => t.statedOf e.2 := by
  refine linked.induction fun id n found ih => ?_
  have below : placedAll (some (lineItem n [])) (n.children.flatMap t.wholeItemAt) =
      (t.entriesAt (n.children.flatMap t.subtree)).map fun e => t.statedOf e.2 := by
    unfold entriesAt
    rw [placedAll_flatMap, List.filterMap_flatMap, List.map_flatMap]
    refine List.flatMap_congr fun c child => ?_
    obtain ⟨m, at_c, up⟩ := (linked.mem_children found).mp child
    have above : t.itemOfParent? m = some (lineItem n []) := by simp [itemOfParent?, up, found]
    rw [← above, ih c m at_c up]
    rfl
  rw [linked.wholeItemAt_eq found, linked.subtree_eq found]
  unfold entriesAt at below ⊢
  rw [List.filterMap_cons, found, Option.map_some, List.map_cons, ← below]
  simp [placedAll, Item.placed, lineItem, statedOf]

theorem Linked.placed_wholeOutline (linked : t.Linked) :
    placedAll none t.wholeOutline = (t.preorder.map (·.2)).map fun e => t.statedOf e.2 := by
  rw [linked.map_preorder, wholeOutline_eq, placedAll_flatMap]
  unfold walk entriesAt
  rw [List.filterMap_flatMap, List.map_flatMap]
  refine List.flatMap_congr fun root top => ?_
  obtain ⟨n, at_root, alone⟩ := linked.mem_roots.mp top
  have above : t.itemOfParent? n = none := by simp [itemOfParent?, alone]
  rw [← above, linked.placed_wholeItemAt root n at_root]
  rfl

/-! ### Lines of a printed tree -/

/-- The line that shows an item at a level in a printed tree, without its line break. -/
def treeLine (entry : Nat × Item) : Text :=
  Text.repeated entry.1 [' ', ' '] ++ (entry.2.kind.tag ++
    '@' :: (Text.ofNat entry.2.line ++ if entry.2.label.isEmpty then [] else ' ' :: entry.2.label))

/-- A printed tree is made of the lines of its items from the top downwards. -/
theorem Linked.dump_eq (linked : t.Linked) :
    t.dump = (levelledAll 0 t.wholeOutline).flatMap fun e => treeLine e ++ ['\n'] := by
  have lines : t.dump = (levels t.wholeOutline).flatMap fun e => treeLine e ++ ['\n'] := by
    rw [linked.levels_wholeOutline, List.flatMap_map, dump]
    refine List.flatMap_congr fun e _ => ?_
    simp [dumpLine, treeLine, lineItem, Node.isBlank]
  rw [lines, levels, List.flatMap_map]
  rfl

variable {e f : Nat × Item}

theorem not_mem_treeLine (unbroken : '\n' ∉ e.2.label) : '\n' ∉ treeLine e := by
  have indent := Text.not_mem_indent (c := '\n') (by decide) e.1
  have number := Text.not_mem_ofNat (c := '\n') (by decide) e.2.line
  have tag := e.2.kind.not_mem_tag.2.2
  unfold treeLine
  split
  · simp [indent, number, tag]
  · simp [indent, number, tag, unbroken]

/-- A line of a printed tree shows the level, the kind, the number and the content. -/
theorem eq_of_treeLine (same : treeLine e = treeLine f) : bareAt e = bareAt f := by
  obtain ⟨n, ⟨label, kind, line, children⟩⟩ := e
  obtain ⟨m, ⟨label', kind', line', children'⟩⟩ := f
  obtain ⟨rfl, same⟩ := Text.eq_of_indented (kind.head?_tag_append _) (kind'.head?_tag_append _) same
  obtain ⟨kinds, texts⟩ := Text.eq_of_append_cons kind.not_mem_tag.2.1 kind'.not_mem_tag.2.1 same
  obtain rfl := Kind.eq_of_tag kinds
  -- The number ends at the end of the line or at the space before the content.
  have ends : ∀ content : Text, Json.Ends (if content.isEmpty then [] else ' ' :: content) := by
    intro content
    split
    · exact Json.ends_nil
    · exact fun c first => by cases first; rfl
  obtain ⟨rfl, contents⟩ := Json.eq_of_ofNat (ends label) (ends label') texts
  have labels : label = label' := by
    cases label <;> cases label' <;> simp_all
  rw [labels]
  rfl

end Tree

/-! ### Trees of scripts -/

/-- The node without its raw line and its depth. -/
def Node.withoutLayout (n : Node) : Node := { n with raw := [], depth := 0 }

theorem Node.keepsLinks_withoutLayout : Tree.KeepsLinks withoutLayout := ⟨fun _ => rfl, fun _ _ => rfl⟩

namespace Tree
variable {t : Tree}

theorem idsUnder_withoutLayout (t : Tree) (parent : Option Nat) :
    (t.mapNodes Node.withoutLayout).idsUnder parent = t.idsUnder parent := by
  unfold idsUnder
  rw [size_mapNodes]
  refine List.filter_congr fun id _ => ?_
  rw [get?_mapNodes, Option.map_map]
  rfl

theorem Linked.withoutLayout (linked : t.Linked) : (t.mapNodes Node.withoutLayout).Linked where
  roots := (idsUnder_withoutLayout t none).symm ▸ linked.roots
  children id n found := by
    rw [get?_mapNodes, Option.map_eq_some_iff] at found
    obtain ⟨m, found, rfl⟩ := found
    rw [idsUnder_withoutLayout]
    exact linked.children id m found
  earlier id n p found up := by
    rw [get?_mapNodes, Option.map_eq_some_iff] at found
    obtain ⟨m, found, rfl⟩ := found
    exact linked.earlier id m p found up

theorem Linked.walkFrom_withoutLayout (linked : t.Linked) :
    ∀ id n, t.get? id = some n → ∀ level, (t.mapNodes Node.withoutLayout).walkFrom level id =
      (t.walkFrom level id).map fun e => (e.1, e.2.1, e.2.2.withoutLayout) := by
  refine linked.induction fun id n found ih level => ?_
  have found' : (t.mapNodes Node.withoutLayout).get? id = some n.withoutLayout := by rw [get?_mapNodes, found]; rfl
  rw [linked.withoutLayout.walkFrom_eq found', linked.walkFrom_eq found, List.map_cons, List.map_flatMap]
  refine congrArg _ (List.flatMap_congr fun c child => ?_)
  obtain ⟨m, at_c, up⟩ := (linked.mem_children found).mp child
  exact ih c m at_c up (level + 1)

/-- A printed tree shows neither raw lines nor depths. -/
theorem Linked.dump_withoutLayout (linked : t.Linked) : (t.mapNodes Node.withoutLayout).dump = t.dump := by
  unfold dump
  rw [preorder_eq, preorder_eq, List.flatMap_assoc, List.flatMap_assoc]
  refine List.flatMap_congr fun root top => ?_
  obtain ⟨n, at_root, -⟩ := linked.mem_roots.mp top
  rw [linked.walkFrom_withoutLayout root n at_root, List.flatMap_map]
  rfl

end Tree

section
variable {options options' : ParseOptions} {text text' : Text} {n m : Node}

theorem unbroken_wholeOutline (options : ParseOptions) (text : Text) :
    ∀ e ∈ Outline.levelledAll 0 (parse options text).wholeOutline, '\n' ∉ e.2.label := by
  have linked := linked_parse options text
  intro e listed
  have shown : Outline.bareAt e ∈ Outline.levels (parse options text).wholeOutline := List.mem_map_of_mem listed
  rw [linked.levels_wholeOutline] at shown
  obtain ⟨⟨level, id, n⟩, walked, same⟩ := List.mem_map.mp shown
  have entry := linked.perm_preorder.mem_iff.mp (List.mem_map_of_mem (f := Prod.snd) walked)
  have label : n.content = e.2.label := congrArg (fun e => e.2.label) same
  rw [← label]
  exact not_mem_content_of_mem_parse (List.mem_of_getElem? (Tree.mem_entries.mp entry))

/-- The items of the parents tell the parents. -/
theorem map_line_itemOfParent? (member : n ∈ (parse options text).nodes) :
    ((parse options text).itemOfParent? n).map (·.line) = n.parent.map (· + 1) := by
  obtain ⟨id, found⟩ := List.getElem?_of_mem member
  unfold Tree.itemOfParent?
  cases up : n.parent with
  | none => rfl
  | some p =>
    obtain ⟨above, at_p⟩ := (linked_parse options text).exists_parent found up
    obtain ⟨-, -, -, number, -⟩ := parse_line at_p
    simp [at_p, Tree.lineItem, number]

/-- What is stated of a node is all of it but its raw line, its depth and its children. -/
theorem withoutLayout_eq_of_stated (member : n ∈ (parse options text).nodes) (member' : m ∈ (parse options' text').nodes)
    (same : (parse options text).statedOf n = (parse options' text').statedOf m) :
    n.bare.withoutLayout = m.bare.withoutLayout := by
  obtain ⟨above, own⟩ := Prod.mk.inj same
  have parent : n.parent = m.parent := by
    have lines := congrArg (Option.map (·.line)) above
    rw [map_line_itemOfParent? member, map_line_itemOfParent? member'] at lines
    exact Option.map_injective (fun _ _ => Nat.succ.inj) lines
  obtain ⟨i, found⟩ := List.getElem?_of_mem member
  obtain ⟨j, found'⟩ := List.getElem?_of_mem member'
  obtain ⟨raw, -, -, -, read⟩ := parse_line found
  obtain ⟨raw', -, -, -, read'⟩ := parse_line found'
  obtain ⟨content, kind, number, -⟩ := Outline.Item.mk.inj own
  have line : n.toLine = m.toLine := by
    have kinds : n.toLine.kind = m.toLine.kind := kind
    have contents : n.toLine.content = m.toLine.content := content
    rw [read, read'] at kinds contents ⊢
    exact Line.eq_of_read kinds contents
  obtain ⟨_, _, _, _, _, _⟩ := n
  obtain ⟨_, _, _, _, _, _⟩ := m
  obtain rfl := line
  obtain rfl := number
  obtain rfl := parent
  rfl

/-- Equal printed trees state the same of the nodes, in the order of the lines. -/
theorem map_stated_eq_of_dump (same : (parse options text).dump = (parse options' text').dump) :
    (parse options text).nodes.map (parse options text).statedOf =
      (parse options' text').nodes.map (parse options' text').statedOf := by
  have linked := linked_parse options text
  have linked' := linked_parse options' text'
  rw [linked.dump_eq, linked'.dump_eq] at same
  have outlines : (parse options text).wholeOutline = (parse options' text').wholeOutline :=
    Outline.eq_of_printed (fun _ _ => Tree.eq_of_treeLine)
      (fun e listed => Tree.not_mem_treeLine (unbroken_wholeOutline options text e listed))
      (fun e listed => Tree.not_mem_treeLine (unbroken_wholeOutline options' text' e listed)) same
  have walks := congrArg (Outline.placedAll none) outlines
  rw [linked.placed_wholeOutline, linked'.placed_wholeOutline] at walks
  -- The walk passes every node once, and the numbers put the nodes in order again.
  have once : ∀ (options : ParseOptions) (text : Text),
      (((parse options text).preorder.map (·.2)).map fun e => (parse options text).statedOf e.2).Perm
        ((parse options text).nodes.map (parse options text).statedOf) := by
    intro options text
    have nodes : (parse options text).nodes.map (parse options text).statedOf =
        (parse options text).entries.map fun e => (parse options text).statedOf e.2 := by
      rw [← Tree.map_snd_entries, List.map_map]
      rfl
    rw [nodes]
    exact (linked_parse options text).perm_preorder.map _
  have increasing : ∀ (options : ParseOptions) (text : Text),
      ((parse options text).nodes.map (parse options text).statedOf).Pairwise fun a b => a.2.line < b.2.line :=
    fun options text => List.pairwise_map.mpr (numbers_increasing options text)
  have perm := (once options text).symm.trans (walks ▸ once options' text')
  refine perm.eq_of_pairwise (fun a b _ _ less greater => ?_) (increasing options text) (increasing options' text')
  exact absurd less (Nat.lt_asymm greater)

theorem withoutLayout_parse (options : ParseOptions) (text : Text) :
    (parse options text).mapNodes Node.withoutLayout =
      .ofNodes ((parse options text).nodes.map fun n => n.bare.withoutLayout) := by
  have nodes : (parse options text).nodes.map (fun n => n.bare.withoutLayout) =
      ((parse options text).nodes.map Node.bare).map Node.withoutLayout := by
    rw [List.map_map]
    rfl
  rw [nodes, map_bare_parse, ← Tree.mapNodes_ofNodes Node.keepsLinks_withoutLayout, parse]

end

/-- Two scripts are printed as the same tree exactly if their trees are the same apart
    from the raw lines and the depths. -/
theorem dump_parse_eq_iff (options options' : ParseOptions) (text text' : Text) :
    (parse options text).dump = (parse options' text').dump ↔
      (parse options text).mapNodes Node.withoutLayout = (parse options' text').mapNodes Node.withoutLayout := by
  constructor
  · intro same
    have stated := map_stated_eq_of_dump same
    rw [withoutLayout_parse, withoutLayout_parse]
    refine congrArg Tree.ofNodes (Text.map_eq_of_map_eq stated fun n member m member' alike => ?_)
    exact withoutLayout_eq_of_stated member member' alike
  · intro same
    rw [← (linked_parse options text).dump_withoutLayout, same, (linked_parse options' text').dump_withoutLayout]

end ScriptAtlas
