import Mathlib.Data.List.Basic
import Mathlib.Data.List.Chain
import ScriptAtlas.Proofs.Script.Forest

/-!
The tree of a script as a forest, with the ways up from its nodes. A tree stores
each link twice, as a parent and in a list of children or roots; in a linked
tree the two agree entry by entry (`Linked.count_childrenOf`). The way up from a
node follows the parents as they are stored (`Climbs`), so it could go round in
a circle; in a linked tree it ends at a root (`Linked.climbs`,
`Linked.getLast?_way`). In the tree of a script lines with content are below
lines that are less deep, and nothing is below a blank line
(`isForest_parse`).
-/
namespace ScriptAtlas

namespace Tree

variable {t : Tree} {id p : Nat} {n m : Node}

/-! ### Children -/

theorem idsUnder_increasing (t : Tree) (parent : Option Nat) : (t.idsUnder parent).Pairwise (· < ·) :=
  List.Pairwise.filter _ List.pairwise_lt_range

theorem count_idsUnder (t : Tree) (parent : Option Nat) (c : Nat) :
    (t.idsUnder parent).count c = if (t.get? c).map (·.parent) = some parent then 1 else 0 := by
  have once : (t.idsUnder parent).Nodup := (idsUnder_increasing t parent).imp Nat.ne_of_lt
  simp only [once.count, mem_idsUnder, Option.map_eq_some_iff]

theorem idsUnder_eq_nil_of_beyond (linked : t.Linked) (beyond : t.size ≤ p) : t.idsUnder (some p) = [] := by
  refine List.eq_nil_iff_forall_not_mem.mpr fun c member => ?_
  obtain ⟨m, found, up⟩ := mem_idsUnder.mp member
  have inside := get?_lt found
  have earlier := linked.earlier c m p found up
  omega

theorem Linked.map_childrenOf (linked : t.Linked) (p : Nat) :
    (t.childrenOf p).map (·.1) = t.idsUnder (some p) := by
  cases found : t.get? p with
  | none =>
    have beyond : t.size ≤ p := List.getElem?_eq_none_iff.mp found
    rw [childrenOf, found, idsUnder_eq_nil_of_beyond linked beyond]
    rfl
  | some n =>
    rw [childrenOf, found, Option.map_some, Option.getD_some, linked.children p n found, List.map_filterMap]
    refine (List.filterMap_congr fun c member => ?_).trans List.filterMap_some
    obtain ⟨m, found, -⟩ := mem_idsUnder.mp member
    rw [found]
    rfl

theorem Linked.count_childrenOf (linked : t.Linked) (p c : Nat) :
    ((t.childrenOf p).map (·.1)).count c = if (t.get? c).bind (·.parent) = some p then 1 else 0 := by
  rw [linked.map_childrenOf, count_idsUnder]
  cases t.get? c <;> simp

/-! ### The way up -/

/-- One step up: the node at a position and the position of its parent. -/
def climb? (t : Tree) (next : Option Nat) : Option ((Nat × Node) × Option Nat) := do
  let id ← next
  let n ← t.get? id
  some ((id, n), n.parent)

/-- Going up step by step from a position meets these nodes and then ends. -/
inductive Climbs (t : Tree) : Option Nat → List (Nat × Node) → Prop
  | done {next : Option Nat} (top : t.climb? next = none) : Climbs t next []
  | step {next above : Option Nat} {e : Nat × Node} {rest : List (Nat × Node)}
      (up : t.climb? next = some (e, above)) (onwards : Climbs t above rest) : Climbs t next (e :: rest)

/-- A node and those above it, with their positions. -/
def way (t : Tree) (id : Nat) (n : Node) : List (Nat × Node) := (id, n) :: t.ancestors id

theorem Linked.exists_parent (linked : t.Linked) (found : t.get? id = some n) (up : n.parent = some p) :
    ∃ m, t.get? p = some m :=
  ⟨_, List.getElem?_eq_getElem (Nat.lt_trans (linked.earlier id n p found up) (get?_lt found))⟩

theorem ancestors_of_root (found : t.get? id = some n) (root : n.parent = none) : t.ancestors id = [] := by
  rw [ancestors, found, Option.bind_some, root]

theorem Linked.ancestors_of_parent (linked : t.Linked) (found : t.get? id = some n) (up : n.parent = some p)
    (above : t.get? p = some m) : t.ancestors id = t.way p m := by
  rw [ancestors, found, Option.bind_some, up, way]
  simp only [linked.earlier id n p found up, above, if_true]

/-- What holds of the roots, and of a node when it holds of its parent, holds of every node. -/
theorem Linked.upward (linked : t.Linked) {P : Nat → Node → Prop}
    (root : ∀ id n, t.get? id = some n → n.parent = none → P id n)
    (child : ∀ id n p m, t.get? id = some n → n.parent = some p → t.get? p = some m → P p m → P id n) :
    ∀ id n, t.get? id = some n → P id n := by
  intro id
  induction id using Nat.strongRecOn with
  | ind id ih =>
    intro n found
    cases parent : n.parent with
    | none => exact root id n found parent
    | some p =>
      obtain ⟨m, above⟩ := linked.exists_parent found parent
      exact child id n p m found parent above (ih p (linked.earlier id n p found parent) m above)

/-- The way up from a node ends, and it meets the ancestors of the node. -/
theorem Linked.climbs (linked : t.Linked) :
    ∀ id n, t.get? id = some n → t.Climbs n.parent (t.ancestors id) := by
  refine linked.upward (fun id n found root => ?_) fun id n p m found up above ih => ?_
  · rw [ancestors_of_root found root, root]
    exact .done rfl
  · rw [linked.ancestors_of_parent found up above, up]
    exact .step (by rw [climb?, Option.bind_eq_bind, Option.bind_some, above]; rfl) ih

theorem Linked.getLast?_way (linked : t.Linked) :
    ∀ id n, t.get? id = some n → ∃ root ∈ t.roots, ((t.way id n).map (·.1)).getLast? = some root := by
  refine linked.upward (fun id n found root => ?_) fun id n p m found up above ih => ?_
  · refine ⟨id, linked.mem_roots.mpr ⟨n, found, root⟩, ?_⟩
    rw [way, ancestors_of_root found root]
    rfl
  · obtain ⟨root, top, last⟩ := ih
    refine ⟨root, top, ?_⟩
    rw [way, linked.ancestors_of_parent found up above, List.map_cons, ← last]
    exact List.getLast?_cons_cons

/-- A quantity that is smaller for the parent of every node of a kind, where
    the parent is of the kind too, decreases all the way up. -/
theorem Linked.decreasing_way (linked : t.Linked) (quantity : Nat × Node → Nat) {Q : Node → Prop}
    (step : ∀ id n p m, t.get? id = some n → n.parent = some p → t.get? p = some m → Q n →
      Q m ∧ quantity (p, m) < quantity (id, n)) :
    ∀ id n, t.get? id = some n → Q n → (t.way id n).Pairwise fun a b => quantity b < quantity a := by
  have chain : ∀ id n, t.get? id = some n → Q n → ((t.way id n).map quantity).IsChain (· > ·) := by
    refine linked.upward (fun id n found root _ => ?_) fun id n p m found up above ih kind => ?_
    · rw [way, ancestors_of_root found root]
      exact .singleton _
    · obtain ⟨above_kind, less⟩ := step id n p m found up above kind
      have onwards := ih above_kind
      rw [way, linked.ancestors_of_parent found up above]
      exact .cons_cons less onwards
  intro id n found kind
  exact List.pairwise_map.mp (List.isChain_iff_pairwise.mp (chain id n found kind))

end Tree

/-! ### The tree of a script -/

section
variable {options : ParseOptions} {text : Text} {id p : Nat} {n m : Node}

theorem depth_lt_of_parent (found : (parse options text).get? id = some n) (up : n.parent = some p)
    (above : (parse options text).get? p = some m) (content : n.isBlank = false) :
    m.isBlank = false ∧ m.depth < n.depth := by
  rw [parse_parent_of_content found content, Option.map_eq_some_iff] at up
  obtain ⟨⟨q, b⟩, last, same⟩ := up
  obtain ⟨before, shallower, -⟩ := lastWhere?_eq_some_iff.mp last
  obtain ⟨m', at_q, rfl⟩ := exists_of_getElem?_before before
  have same : q = p := same
  have standing : m' = m := Option.some.inj (at_q.symm.trans (same ▸ above))
  simpa [standing, Node.bare, Node.isBlank] using shallower

theorem isBlank_of_parent (found : (parse options text).get? id = some n) (up : n.parent = some p)
    (above : (parse options text).get? p = some m) : m.isBlank = false := by
  cases blank : n.isBlank with
  | false => exact (depth_lt_of_parent found up above blank).1
  | true =>
    -- A blank line belongs to what the last line with content belongs to.
    rw [parse_parent_of_blank found blank, Option.bind_eq_some_iff] at up
    obtain ⟨⟨q, b⟩, last, same⟩ := up
    obtain ⟨before, content, -⟩ := lastWhere?_eq_some_iff.mp last
    obtain ⟨sibling, at_q, rfl⟩ := exists_of_getElem?_before before
    exact (depth_lt_of_parent at_q same above ((Bool.not_eq_true' _).mp content)).1

theorem children_of_isBlank (found : (parse options text).get? id = some n) (blank : n.isBlank = true) :
    n.children = [] := by
  refine List.eq_nil_iff_forall_not_mem.mpr fun c member => ?_
  obtain ⟨m, below, up⟩ := ((linked_parse options text).mem_children found).mp member
  rw [isBlank_of_parent below up found] at blank
  cases blank

end

namespace Tree

/-- The links of a tree are those of a forest, written down three times: as
    parents, as lists of children and as the list of roots. -/
structure IsForest (t : Tree) : Prop where
  parent_earlier : ∀ id n p, t.get? id = some n → n.parent = some p → p < id
  children_once : ∀ p c, ((t.childrenOf p).map (·.1)).count c = if (t.get? c).bind (·.parent) = some p then 1 else 0
  children_kept : ∀ id n, t.get? id = some n → n.children = (t.childrenOf id).map (·.1)
  children_increasing : ∀ id n, t.get? id = some n → n.children.Pairwise (· < ·)
  mem_roots_iff : ∀ id, id ∈ t.roots ↔ ∃ n, t.get? id = some n ∧ n.parent = none
  roots_increasing : t.roots.Pairwise (· < ·)
  blank_leaf : ∀ id n, t.get? id = some n → n.isBlank = true → n.children = []

/-- The way up from a node comes to an end at a root, with positions that
    decrease on the way, and from a node with content also with depths that do. -/
structure LeadsUp (t : Tree) (id : Nat) (n : Node) : Prop where
  ends : t.Climbs n.parent (t.ancestors id)
  at_root : ∃ root ∈ t.roots, ((t.way id n).map (·.1)).getLast? = some root
  positions_decrease : (t.way id n).Pairwise fun a b => b.1 < a.1
  depths_decrease : n.isBlank = false → (t.way id n).Pairwise fun a b => b.2.depth < a.2.depth

end Tree

/-- The tree of a script is a forest: every parent comes before its children,
    every node stands once in the list of its parent or of the roots, these lists
    are in order and blank lines have no children. From every node a way leads up
    to a root. -/
theorem isForest_parse (options : ParseOptions) (text : Text) :
    (parse options text).IsForest ∧
      ∀ id n, (parse options text).get? id = some n → (parse options text).LeadsUp id n := by
  have linked := linked_parse options text
  constructor
  · exact {
      parent_earlier := linked.earlier
      children_once := linked.count_childrenOf
      children_kept := fun id n found => by rw [linked.map_childrenOf, linked.children id n found]
      children_increasing := fun id n found => by
        rw [linked.children id n found]
        exact Tree.idsUnder_increasing _ _
      mem_roots_iff := fun id => by rw [linked.roots, Tree.mem_idsUnder]
      roots_increasing := by
        rw [linked.roots]
        exact Tree.idsUnder_increasing _ _
      blank_leaf := fun id n => children_of_isBlank }
  · intro id n found
    exact {
      ends := linked.climbs id n found
      at_root := linked.getLast?_way id n found
      positions_decrease :=
        linked.decreasing_way (·.1) (Q := fun _ => True)
          (fun id n p _ found up _ _ => ⟨trivial, linked.earlier id n p found up⟩) id n found trivial
      depths_decrease :=
        linked.decreasing_way (·.2.depth) (Q := fun n => n.isBlank = false)
          (fun _ _ _ _ => depth_lt_of_parent) id n found }

end ScriptAtlas
