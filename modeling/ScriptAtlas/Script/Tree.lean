import ScriptAtlas.Line.Reading

/-!
A script as a tree. The nodes are its lines in source order; each node has the
position of its parent and of its children among the nodes, and the roots are
the nodes without a parent. Children come after their parent, so the walks from
a node towards its descendants and towards its ancestors end.
-/
namespace ScriptAtlas

/-- A line of a script in its place. -/
structure Node extends Line where
  /-- The line as it stands in the source. -/
  raw : Text
  /-- The number of the line, from 1. -/
  number : Nat
  depth : Nat
  parent : Option Nat
  children : List Nat
deriving DecidableEq, Repr

def Node.kind (n : Node) : Kind := n.construct.kind

def Node.isBlank (n : Node) : Bool := n.content.isEmpty

/-- The node with one more child, after those it has. -/
def Node.addChild (n : Node) (child : Nat) : Node := { n with children := n.children ++ [child] }

/-- The node without its links to its children. -/
def Node.bare (n : Node) : Node := { n with children := [] }

theorem Node.bare_addChild (child : Nat) (n : Node) : (n.addChild child).bare = n.bare := rfl

/-- The lines of a script with the links between them. -/
structure Tree where
  nodes : List Node := []
  roots : List Nat := []
deriving DecidableEq, Repr

namespace Tree

/-- Appends a node and links it to its parent, or to the roots if it has none. -/
def push (t : Tree) (n : Node) : Tree :=
  match n.parent with
  | some p => { t with nodes := t.nodes.modify p (·.addChild t.nodes.length) ++ [n] }
  | none => ⟨t.nodes ++ [n], t.roots ++ [t.nodes.length]⟩

/-- The tree of nodes that have no children yet. -/
def ofNodes (nodes : List Node) : Tree := nodes.foldl push {}

theorem map_modify_of_comm {α β : Type} {f : α → α} {h : β → β} {g : α → β} (comm : ∀ a, g (f a) = h (g a))
    (items : List α) (i : Nat) : (items.modify i f).map g = (items.map g).modify i h := by
  refine List.ext_getElem? fun j => ?_
  rw [List.getElem?_map, List.getElem?_modify, List.getElem?_modify, List.getElem?_map]
  cases items[j]? with
  | none => rfl
  | some a => by_cases own : i = j <;> simp [own, comm]

/-- Appending a node adds it at the end and changes no more than the children of others. -/
theorem map_bare_push (t : Tree) (n : Node) :
    (t.push n).nodes.map Node.bare = t.nodes.map Node.bare ++ [n.bare] := by
  rw [push]
  cases n.parent with
  | none => rw [List.map_append]; rfl
  | some p => rw [List.map_append, map_modify_of_comm (h := id) (Node.bare_addChild _), List.modify_id]; rfl

/-- The nodes of a tree are those it was made of, up to their children. -/
theorem map_bare_ofNodes (nodes : List Node) : (ofNodes nodes).nodes.map Node.bare = nodes.map Node.bare := by
  have onwards : ∀ (nodes : List Node) (t : Tree),
      (nodes.foldl push t).nodes.map Node.bare = t.nodes.map Node.bare ++ nodes.map Node.bare := by
    intro nodes
    induction nodes with
    | nil => intro t; rw [List.foldl_nil, List.map_nil, List.append_nil]
    | cons n rest ih =>
      intro t
      rw [List.foldl_cons, ih, map_bare_push, List.append_assoc, List.map_cons, List.singleton_append]
  exact onwards nodes {}

def get? (t : Tree) (id : Nat) : Option Node := t.nodes[id]?

def size (t : Tree) : Nat := t.nodes.length

def parentOf? (t : Tree) (id : Nat) : Option Node := do
  let n ← t.get? id
  let p ← n.parent
  t.get? p

/-- The kind of the node to which a node belongs. -/
def parentKind (t : Tree) (n : Node) : Option Kind := (n.parent.bind t.get?).map (·.kind)

def childrenOf (t : Tree) (id : Nat) : List (Nat × Node) :=
  (((t.get? id).map (·.children)).getD []).filterMap fun c => (t.get? c).map (c, ·)

def entries (t : Tree) : List (Nat × Node) := t.nodes.zipIdx.map fun (n, id) => (id, n)

def contentNodes (t : Tree) : List Node := t.nodes.filter (!·.isBlank)

/-- The node of the line with a number: the one in the place of the line, or the
    first with the number if another line stands there. -/
def atLine? (t : Tree) : Nat → Option (Nat × Node)
  | 0 => none
  | place + 1 =>
    (((t.get? place).filter (·.number == place + 1)).map (place, ·)).or
      (t.entries.find? (·.2.number == place + 1))

/-- The nodes above a node, its parent first. -/
def ancestors (t : Tree) (id : Nat) : List (Nat × Node) :=
  match (t.get? id).bind (·.parent) with
  | none => []
  | some p =>
    if p < id then
      match t.get? p with
      | none => []
      | some n => (p, n) :: t.ancestors p
    else []
termination_by id

/-- Combines a node with the results for its children, from the leaves upwards. -/
def fold (t : Tree) (combine : Nat → Node → List α → α) (id : Nat) : Option α :=
  match _found : t.nodes[id]? with
  | none => none
  | some n =>
    some (combine id n
      ((n.children.filter (id < ·)).attach.filterMap fun ⟨c, _⟩ => t.fold combine c))
termination_by t.nodes.length - id
decreasing_by
  rename_i member
  have later := (List.mem_filter.mp member).2
  have inside := (List.getElem?_eq_some_iff.mp _found).1
  simp only [decide_eq_true_eq] at later
  omega

/-- A node is combined with the results for the children that come after it. -/
theorem fold_eq (t : Tree) (combine : Nat → Node → List α → α) (id : Nat) :
    t.fold combine id = (t.get? id).map fun n =>
      combine id n ((n.children.filter (id < ·)).filterMap (t.fold combine)) := by
  rw [fold]
  split
  · rename_i absent
    rw [get?, absent]
    rfl
  · rename_i n found
    rw [get?, found, Option.map_some]
    congr 2
    rw [List.filterMap_subtype (fun _ _ => rfl), List.unattach_attach]

/-- The results for the roots, in order. -/
def foldRoots (t : Tree) (combine : Nat → Node → List α → α) : List α :=
  t.roots.filterMap (t.fold combine)

/-- The nodes from the roots downwards, each before its children, with their
    level and position. -/
def preorder (t : Tree) : List (Nat × Nat × Node) :=
  (t.foldRoots fun id n below level =>
    (level, id, n) :: below.flatMap (· (level + 1))).flatMap (· 0)

/-- A line of the printed tree: two spaces for each level, the kind, the number
    of the line and its content, if it has any. -/
def dumpLine (level : Nat) (n : Node) : Text :=
  Text.repeated level [' ', ' '] ++ n.kind.tag ++ '@' :: Text.ofNat n.number ++
    (if n.isBlank then [] else ' ' :: n.content) ++ ['\n']

def dump (t : Tree) : Text := t.preorder.flatMap fun (level, _, n) => dumpLine level n

end Tree
end ScriptAtlas
