import ScriptAtlas.Script.Parse
import ScriptAtlas.Outline.Item

/-!
The outline of a script keeps the lines that give it structure. A line that is
left out hands the items below it to the nearest line above it that is kept.
-/
namespace ScriptAtlas

def Parameter.label (p : Parameter) : Text :=
  p.name ++ ": ".toList ++ p.type ++ if p.hasDefault then " = ".toList ++ p.default else []

def Signature.label (s : Signature) : Text :=
  s.name ++ '(' :: Text.joinWith ", ".toList (s.parameters.map (·.label)) ++ ") :: ".toList ++
    s.returns

namespace Outline

/-- Whether a line of a kind gives structure under a line of the kind `parent`. -/
def isStructural (parent : Option Kind) : Kind → Bool
  | .event | .function | .command | .class | .options | .option | .trigger
  | .ifStatement | .elseStatement | .loop | .setVar => true
  | .undefined | .comment => false
  | .functionCall | .stop | .statement => parent = some .options

/-- The code of a line without a final colon. -/
def plainLabel (content : Text) : Text :=
  Text.trimEnd (Text.dropFinal ':' (Text.trimEnd (Comment.code content)))

/-- The label of a line: its signature, else the name it gives, else its code. -/
def labelOf (construct : Construct) (content : Text) : Text :=
  match construct with
  | .function (some signature) => signature.label
  | .setVar none => plainLabel content
  | construct =>
    let name := Text.trim (construct.name?.getD [])
    if name.isEmpty then plainLabel content else name

/-- The items of a node under a line of a given kind, from those of its children. -/
def itemsOf (_id : Nat) (n : Node) (below : List (Option Kind → List Item))
    (parent : Option Kind) : List Item :=
  let children := below.flatMap (· (some n.kind))
  if isStructural parent n.kind then
    [⟨labelOf n.construct n.content, n.kind, n.number, children⟩]
  else children

def ofTree (t : Tree) : List Item := (t.foldRoots itemsOf).flatMap (· none)

end Outline
end ScriptAtlas
