import Mathlib.Data.List.Basic
import Mathlib.Data.List.Induction
import ScriptAtlas.Proofs.Script.Placement

/-!
The links of a script's tree. Appending one node after the other keeps the links
to parents and the links to children in step (`Linked`, `linked_push`), so the
tree of a script is a forest in which every node comes after its parent
(`linked_parse`). The walk that goes from the roots downwards reaches every node
(`mem_walk`).
-/
namespace ScriptAtlas

namespace Tree

/-! ### Parents and children -/

/-- The positions of the nodes with a given parent, in order. -/
def idsUnder (t : Tree) (parent : Option Nat) : List Nat :=
  (List.range t.size).filter fun id => (t.get? id).map (·.parent) = some parent

/-- The roots are the nodes without a parent, the children of a node are those
    that have it as their parent, and every parent comes before its children. -/
structure Linked (t : Tree) : Prop where
  roots : t.roots = t.idsUnder none
  children : ∀ id n, t.get? id = some n → n.children = t.idsUnder (some id)
  earlier : ∀ id n p, t.get? id = some n → n.parent = some p → p < id

theorem get?_lt {t : Tree} {id : Nat} {n : Node} (found : t.get? id = some n) : id < t.size :=
  (List.getElem?_eq_some_iff.mp found).1

theorem mem_idsUnder {t : Tree} {parent : Option Nat} {id : Nat} :
    id ∈ t.idsUnder parent ↔ ∃ n, t.get? id = some n ∧ n.parent = parent := by
  rw [idsUnder, List.mem_filter, List.mem_range, decide_eq_true_eq, Option.map_eq_some_iff]
  constructor
  · rintro ⟨-, found⟩
    exact found
  · rintro ⟨n, found, up⟩
    exact ⟨get?_lt found, n, found, up⟩

theorem size_push (t : Tree) (n : Node) : (t.push n).size = t.size + 1 := by
  rw [push]
  cases n.parent with
  | none => exact List.length_append
  | some p => simp [size]

/-- The new node comes last, and its parent has one more child. -/
theorem get?_push (t : Tree) (n : Node) (id : Nat) :
    (t.push n).get? id =
      if id = t.size then some n
      else (t.get? id).map fun m => if n.parent = some id then m.addChild t.size else m := by
  have kept : ∀ (nodes : List Node), nodes.length = t.size → id ≠ t.size →
      (nodes ++ [n])[id]? = nodes[id]? := fun nodes same apart => by
    rw [List.getElem?_append]
    split
    · rfl
    · have beyond : t.size < id := by omega
      rw [List.getElem?_eq_none (by simp; omega), List.getElem?_eq_none (by omega)]
  rw [push]
  by_cases own : id = t.size
  · rw [if_pos own, own]
    cases n.parent with
    | none => exact List.getElem?_concat_length
    | some p =>
      have length : (t.nodes.modify p (·.addChild t.nodes.length)).length = t.size := List.length_modify ..
      rw [get?, ← length]
      exact List.getElem?_concat_length
  · rw [if_neg own]
    cases parent : n.parent with
    | none => rw [get?, kept t.nodes rfl own, get?]; simp
    | some p =>
      rw [get?, kept _ (List.length_modify ..) own, List.getElem?_modify, get?]
      by_cases same : p = id <;> cases t.nodes[id]? <;> simp [same, size]

theorem map_parent_push (t : Tree) (n : Node) (id : Nat) :
    ((t.push n).get? id).map (·.parent) =
      if id = t.size then some n.parent else (t.get? id).map (·.parent) := by
  rw [get?_push]
  split
  · rfl
  · rw [Option.map_map]
    congr 1
    funext m
    simp only [Function.comp_apply]
    split <;> rfl

theorem idsUnder_push (t : Tree) (n : Node) (parent : Option Nat) :
    (t.push n).idsUnder parent = t.idsUnder parent ++ if n.parent = parent then [t.size] else [] := by
  rw [idsUnder, size_push, List.range_succ, List.filter_append, idsUnder]
  congr 1
  · refine List.filter_congr fun id member => ?_
    have apart : id ≠ t.size := Nat.ne_of_lt (List.mem_range.mp member)
    rw [map_parent_push, if_neg apart]
  · rw [List.filter_singleton, map_parent_push, if_pos rfl]
    simp

theorem linked_empty : Linked {} where
  roots := rfl
  children _ _ found := by cases found
  earlier _ _ _ found := by cases found

/-- Appending a node that comes after its parent keeps the links in step. -/
theorem linked_push {t : Tree} (linked : t.Linked) {n : Node} (alone : n.children = [])
    (earlier : ∀ p, n.parent = some p → p < t.size) : (t.push n).Linked where
  roots := by
    rw [idsUnder_push, ← linked.roots, push]
    cases n.parent with
    | none => rfl
    | some p => simp
  children id m found := by
    rw [get?_push] at found
    rw [idsUnder_push]
    split at found
    · rename_i own
      cases found
      -- No node has a parent that is still to come.
      have none : t.idsUnder (some id) = [] := by
        refine List.eq_nil_iff_forall_not_mem.mpr fun c member => ?_
        obtain ⟨m, found, up⟩ := mem_idsUnder.mp member
        have := get?_lt found
        have := linked.earlier c m id found up
        omega
      have apart : n.parent ≠ some id := fun up => by
        have := earlier id up
        omega
      rw [none, if_neg apart, alone, List.nil_append]
    · obtain ⟨m', at_id, rfl⟩ := Option.map_eq_some_iff.mp found
      rw [← linked.children id m' at_id]
      split
      · rfl
      · rw [List.append_nil]
  earlier id m p found up := by
    have parent : ((t.push n).get? id).map (·.parent) = some (some p) := by rw [found, ← up]; rfl
    rw [map_parent_push] at parent
    split at parent
    · rename_i own
      exact own ▸ earlier p (Option.some.inj parent)
    · obtain ⟨m', found, up⟩ := Option.map_eq_some_iff.mp parent
      exact linked.earlier id m' p found up

theorem ofNodes_concat (nodes : List Node) (n : Node) : ofNodes (nodes ++ [n]) = (ofNodes nodes).push n := by
  rw [ofNodes, List.foldl_append]
  rfl

theorem size_ofNodes (nodes : List Node) : (ofNodes nodes).size = nodes.length := by
  rw [size, ← List.length_map Node.bare, map_bare_ofNodes, List.length_map]

/-- The tree of nodes that come after their parents is linked in both directions. -/
theorem linked_ofNodes (nodes : List Node)
    (fit : ∀ (id : Nat) (n : Node), nodes[id]? = some n → n.children = [] ∧ ∀ p, n.parent = some p → p < id) :
    (ofNodes nodes).Linked := by
  induction nodes using List.reverseRecOn with
  | nil => exact linked_empty
  | append_singleton nodes n ih =>
    obtain ⟨alone, earlier⟩ := fit nodes.length n List.getElem?_concat_length
    rw [ofNodes_concat]
    refine linked_push (ih fun id m found => fit id m ?_) alone fun p up => ?_
    · rw [List.getElem?_append_left (List.getElem?_eq_some_iff.mp found).1, found]
    · rw [size_ofNodes]
      exact earlier p up

/-! ### Trees with other nodes -/

/-- The tree with other nodes in the place of its own. -/
def mapNodes (f : Node → Node) (t : Tree) : Tree := { t with nodes := t.nodes.map f }

/-- A node has the links of the one in whose place it stands. -/
structure KeepsLinks (f : Node → Node) : Prop where
  parent : ∀ n, (f n).parent = n.parent
  addChild : ∀ child n, f (n.addChild child) = (f n).addChild child

theorem mapNodes_push {f : Node → Node} (keeps : KeepsLinks f) (t : Tree) (n : Node) :
    (t.push n).mapNodes f = (t.mapNodes f).push (f n) := by
  rw [push, push, keeps.parent]
  cases n.parent with
  | none => simp [mapNodes]
  | some p =>
    have modified : (t.nodes.modify p (·.addChild t.nodes.length)).map f =
        (t.nodes.map f).modify p (·.addChild t.nodes.length) :=
      map_modify_of_comm (keeps.addChild t.nodes.length) t.nodes p
    simp [mapNodes, modified]

/-- The tree of other nodes is the tree with the other nodes. -/
theorem mapNodes_ofNodes {f : Node → Node} (keeps : KeepsLinks f) (nodes : List Node) :
    (ofNodes nodes).mapNodes f = ofNodes (nodes.map f) := by
  induction nodes using List.reverseRecOn with
  | nil => rfl
  | append_singleton nodes n ih => rw [ofNodes_concat, mapNodes_push keeps, ih, List.map_append, List.map_singleton,
      ofNodes_concat]

theorem get?_mapNodes (f : Node → Node) (t : Tree) (id : Nat) : (t.mapNodes f).get? id = (t.get? id).map f :=
  List.getElem?_map

theorem size_mapNodes (f : Node → Node) (t : Tree) : (t.mapNodes f).size = t.size := List.length_map ..

end Tree

/-- The node without the line it was read from. -/
def Node.withoutRaw (n : Node) : Node := { n with raw := [] }

/-- The tree without the lines it was read from. -/
def Tree.withoutRaw (t : Tree) : Tree := { t with nodes := t.nodes.map Node.withoutRaw }

theorem Node.keepsLinks_withoutRaw : Tree.KeepsLinks Node.withoutRaw := ⟨fun _ => rfl, fun _ _ => rfl⟩

namespace Tree

theorem withoutRaw_ofNodes (nodes : List Node) : (ofNodes nodes).withoutRaw = ofNodes (nodes.map Node.withoutRaw) :=
  mapNodes_ofNodes Node.keepsLinks_withoutRaw nodes

/-! ### The walk downwards -/

/-- The positions of a node and all below it, each before those below it. -/
def subtree (t : Tree) (id : Nat) : List Nat :=
  (t.fold (fun id _ below => id :: below.flatten) id).getD []

/-- The positions of the nodes in the order of the walk from the roots downwards. -/
def walk (t : Tree) : List Nat := t.roots.flatMap t.subtree

theorem Linked.mem_children {t : Tree} (linked : t.Linked) {id c : Nat} {n : Node} (found : t.get? id = some n) :
    c ∈ n.children ↔ ∃ m, t.get? c = some m ∧ m.parent = some id := by
  rw [linked.children id n found, mem_idsUnder]

theorem Linked.mem_roots {t : Tree} (linked : t.Linked) {id : Nat} :
    id ∈ t.roots ↔ ∃ n, t.get? id = some n ∧ n.parent = none := by
  rw [linked.roots, mem_idsUnder]

/-- What holds of a node when it holds of its children holds of every node. -/
theorem Linked.induction {t : Tree} (linked : t.Linked) {P : Nat → Node → Prop}
    (step : ∀ id n, t.get? id = some n →
      (∀ c m, t.get? c = some m → m.parent = some id → P c m) → P id n) :
    ∀ id n, t.get? id = some n → P id n := by
  -- Children come later, so the number of nodes from a node on gets smaller.
  intro id
  induction left : t.size - id using Nat.strongRecOn generalizing id with
  | ind left ih =>
    intro n found
    refine step id n found fun c m below up => ?_
    have inside := get?_lt found
    have later := linked.earlier c m id below up
    exact ih (t.size - c) (by omega) c rfl m below

/-- The results for the children of a node, where each comes after it. -/
theorem Linked.fold_eq {t : Tree} (linked : t.Linked) {α : Type} (combine : Nat → Node → List α → α)
    {id : Nat} {n : Node} (found : t.get? id = some n) :
    t.fold combine id = some (combine id n (n.children.filterMap (t.fold combine))) := by
  have later : n.children.filter (id < ·) = n.children := by
    refine List.filter_eq_self.mpr fun c child => ?_
    obtain ⟨m, below, up⟩ := (linked.mem_children found).mp child
    exact decide_eq_true (linked.earlier c m id below up)
  rw [Tree.fold_eq, found, Option.map_some, later]

theorem flatMap_filterMap {α β γ : Type} (xs : List α) (f : α → Option β) (g : β → List γ) :
    (xs.filterMap f).flatMap g = xs.flatMap fun x => ((f x).map g).getD [] := by
  induction xs with
  | nil => rfl
  | cons x rest ih =>
    rw [List.flatMap_cons, ← ih, List.filterMap_cons]
    cases f x with
    | none => rfl
    | some y => rw [List.flatMap_cons]; rfl

theorem Linked.subtree_eq {t : Tree} (linked : t.Linked) {id : Nat} {n : Node} (found : t.get? id = some n) :
    t.subtree id = id :: n.children.flatMap t.subtree := by
  rw [subtree, linked.fold_eq _ found, Option.getD_some, ← List.flatMap_id, flatMap_filterMap]
  congr 2
  funext c
  rw [subtree]
  cases t.fold _ c <;> rfl

theorem Linked.mem_subtree_self {t : Tree} (linked : t.Linked) {id : Nat} {n : Node}
    (found : t.get? id = some n) : id ∈ t.subtree id := by
  rw [linked.subtree_eq found]
  exact List.mem_cons_self

/-- A child stands below whatever its parent stands below. -/
theorem Linked.mem_subtree_child {t : Tree} (linked : t.Linked) {c p : Nat} {m : Node}
    (found : t.get? c = some m) (up : m.parent = some p) :
    ∀ top n, t.get? top = some n → p ∈ t.subtree top → c ∈ t.subtree top := by
  refine linked.induction fun top n at_top ih member => ?_
  rw [linked.subtree_eq at_top, List.mem_cons, List.mem_flatMap] at member
  rw [linked.subtree_eq at_top, List.mem_cons, List.mem_flatMap]
  rcases member with rfl | ⟨d, child, inside⟩
  · exact Or.inr ⟨c, (linked.mem_children at_top).mpr ⟨m, found, up⟩, linked.mem_subtree_self found⟩
  · obtain ⟨m', at_d, below⟩ := (linked.mem_children at_top).mp child
    exact Or.inr ⟨d, child, ih d m' at_d below inside⟩

/-- The walk reaches every node. -/
theorem Linked.mem_walk {t : Tree} (linked : t.Linked) {id : Nat} {n : Node} (found : t.get? id = some n) :
    id ∈ t.walk := by
  induction id using Nat.strongRecOn generalizing n with
  | ind id ih =>
    cases parent : n.parent with
    | none =>
      have top := linked.mem_roots.mpr ⟨n, found, parent⟩
      exact List.mem_flatMap.mpr ⟨id, top, linked.mem_subtree_self found⟩
    | some p =>
      have earlier := linked.earlier id n p found parent
      have above : t.nodes[p]? = some _ := List.getElem?_eq_getElem (Nat.lt_trans earlier (get?_lt found))
      obtain ⟨root, top, member⟩ := List.mem_flatMap.mp (ih p earlier above)
      obtain ⟨r, at_root, -⟩ := linked.mem_roots.mp top
      refine List.mem_flatMap.mpr ⟨root, top, ?_⟩
      exact linked.mem_subtree_child found parent root r at_root member

end Tree

/-! ### The tree of a script -/

/-- The tree of a script is linked in both directions. -/
theorem linked_parse (options : ParseOptions) (text : Text) : (parse options text).Linked := by
  refine Tree.linked_ofNodes _ fun id n found => ?_
  rw [Placing.getElem?_nodes, Nat.zero_add] at found
  obtain ⟨raw, -, rfl⟩ := Option.map_eq_some_iff.mp found
  refine ⟨rfl, fun p up => ?_⟩
  rw [Placing.parent_node] at up
  obtain ⟨b, block, rfl⟩ := Option.map_eq_some_iff.mp up
  obtain ⟨m, before, -⟩ := (Placing.follows_after _).parentOf_standing _ _ block
  have inside := (List.getElem?_eq_some_iff.mp before).1
  rw [Placing.length_nodes, List.length_take] at inside
  omega

end ScriptAtlas
