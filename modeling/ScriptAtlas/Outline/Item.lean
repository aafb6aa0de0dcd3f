import ScriptAtlas.Text.Lowercase
import ScriptAtlas.Text.Blank
import ScriptAtlas.Text.Cut
import ScriptAtlas.Line.Construct

/-!
An outline is a forest of items. Filtering it by a keyword keeps the items
whose label contains the keyword in lower case, together with everything above
them. Printing it writes one item a line, indented by its level.
-/
namespace ScriptAtlas.Outline

/-- A line that gives a script its structure, with the items below it. -/
structure Item where
  label : Text
  kind : Kind
  /-- The number of the line. -/
  line : Nat
  children : List Item
deriving Repr

mutual

/-- An item with those items below it that lead to a label with the keyword,
    unless neither it nor any of them has it. -/
def Item.keep (keyword : Text) : Item → Option Item
  | ⟨label, kind, line, children⟩ =>
    let kept := keepAll keyword children
    if Text.hasPart keyword (Text.lowercase label) || !kept.isEmpty then
      some ⟨label, kind, line, kept⟩
    else none

/-- The items of a list that are kept. -/
def keepAll (keyword : Text) : List Item → List Item
  | [] => []
  | item :: rest =>
    match item.keep keyword with
    | some kept => kept :: keepAll keyword rest
    | none => keepAll keyword rest

end

mutual

/-- An item and all below it, each before those below it. -/
def Item.preorder : Item → List Item
  | ⟨label, kind, line, children⟩ => ⟨label, kind, line, children⟩ :: preorderAll children

/-- The items of a list and all below them, each before those below it. -/
def preorderAll : List Item → List Item
  | [] => []
  | item :: rest => item.preorder ++ preorderAll rest

end

/-- The form in which a keyword is looked for. -/
def keywordOf (keyword : Text) : Text := Text.lowercase (Text.trim keyword)

/-- The items whose label contains the keyword, and those above them. A blank
    keyword keeps everything. -/
def filter (items : List Item) (keyword : Text) : List Item :=
  if (keywordOf keyword).isEmpty then items else keepAll (keywordOf keyword) items

/-- The line that shows an item at a level. -/
def itemLine (level : Nat) (label : Text) (kind : Kind) (line : Nat) : Text :=
  Text.repeated level [' ', ' '] ++ kind.tag ++ ' ' :: label ++ " (line ".toList ++
    Text.ofNat line ++ ")\n".toList

mutual

/-- An item and all below it, one a line. -/
def Item.render (level : Nat) : Item → Text
  | ⟨label, kind, line, children⟩ =>
    itemLine level label kind line ++ renderAll (level + 1) children

def renderAll (level : Nat) : List Item → Text
  | [] => []
  | item :: rest => item.render level ++ renderAll level rest

end

def render (items : List Item) : Text := renderAll 0 items

end ScriptAtlas.Outline
