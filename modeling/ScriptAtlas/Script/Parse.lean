import ScriptAtlas.Script.Indentation
import ScriptAtlas.Script.Tree

/-!
Placing the lines of a script by their depth. A line with content belongs to
the nearest line with content before it that is less deep; such a line closes
every block that is at least as deep. A blank line closes nothing and stands
beside the last line with content.
-/
namespace ScriptAtlas

/-- A line to which following lines can belong. -/
structure Block where
  id : Nat
  depth : Nat
  kind : Kind
deriving DecidableEq, Repr

/-- What the lines so far mean for the place of the next one. -/
structure Placing where
  /-- The blocks that are open, the innermost first. -/
  opened : List Block := []
  /-- The block to which the last line with content belongs. -/
  beside : Option Block := none
deriving DecidableEq, Repr

namespace Placing

/-- The open blocks that are less deep than a line. -/
def enclosing (s : Placing) (depth : Nat) : List Block :=
  s.opened.dropWhile (depth ≤ ·.depth)

/-- The block to which a line belongs. -/
def parentOf (s : Placing) (depth : Nat) (blank : Bool) : Option Block :=
  if blank then s.beside else (s.enclosing depth).head?

def node (options : ParseOptions) (s : Placing) (id : Nat) (raw : Text) : Node :=
  let text := readable (id + 1) raw
  let depth := depthOf options.tabWidth text
  let parent := s.parentOf depth (isBlankLine text)
  { Line.read options (parent.map (·.kind)) text with
    raw, number := id + 1, depth, parent := parent.map (·.id), children := [] }

/-- What the next line, with its node, means for the place of the lines after it. -/
def next (s : Placing) (id : Nat) (raw : Text) (n : Node) : Placing :=
  if isBlankLine (readable (id + 1) raw) then s
  else ⟨⟨id, n.depth, n.kind⟩ :: s.enclosing n.depth, (s.enclosing n.depth).head?⟩

/-- The nodes of the lines that follow, without their children. -/
def nodes (options : ParseOptions) : Placing → Nat → List Text → List Node
  | _, _, [] => []
  | s, id, raw :: rest =>
    let n := s.node options id raw
    n :: nodes options (s.next id raw n) (id + 1) rest

end Placing

theorem Placing.map_bare_nodes (options : ParseOptions) (s : Placing) (id : Nat) (lines : List Text) :
    (nodes options s id lines).map Node.bare = nodes options s id lines := by
  induction lines generalizing s id with
  | nil => rfl
  | cons raw rest ih => rw [nodes, List.map_cons, ih]; rfl

def parse (options : ParseOptions) (text : Text) : Tree :=
  .ofNodes (Placing.nodes options {} 0 (sourceLines text))

/-- The nodes of a script are those of its lines, up to their children. -/
theorem map_bare_parse (options : ParseOptions) (text : Text) :
    (parse options text).nodes.map Node.bare = Placing.nodes options {} 0 (sourceLines text) := by
  rw [parse, Tree.map_bare_ofNodes, Placing.map_bare_nodes]

end ScriptAtlas
