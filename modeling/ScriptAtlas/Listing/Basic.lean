import ScriptAtlas.Script.Parse
import ScriptAtlas.Outline.Projection
import ScriptAtlas.Json.Value

/-!
A listing shows every line of a script with what was read from it, for readers
outside the library. What a line does not have is left out of its entry.
-/
namespace ScriptAtlas

/-- What a listing shows of a line. -/
structure Entry where
  line : Nat
  depth : Nat
  /-- The position of the parent among the entries. -/
  parent : Option Nat
  /-- The tag of the kind. -/
  tag : Text
  content : Text
  comment : Option Text
  name : Option Text
  parameters : Option (List Parameter)
  returns : Option Text
  /-- Given for a function with a signature. -/
  ready : Option Bool
  visibility : Option Visibility
  fromOption : Option Bool
  value : Option Text
  path : Option (List Text)
  /-- Given for an assignment that cannot be taken apart. -/
  invalid : Option Bool
deriving DecidableEq, Repr

/-- The lines of a script as they are shown. -/
structure Listing where
  entries : List Entry
deriving DecidableEq, Repr

namespace Entry

def kind? (e : Entry) : Option Kind := Kind.ofTag? e.tag

/-- An entry with what every line has. -/
def plain (n : Node) : Entry where
  line := n.number
  depth := n.depth
  parent := n.parent
  tag := n.kind.tag
  content := n.content
  comment := n.comment
  name := n.construct.name?
  parameters := none
  returns := none
  ready := none
  visibility := none
  fromOption := none
  value := none
  path := none
  invalid := none

def ofNode (n : Node) : Entry :=
  match n.construct with
  | .function (some s) =>
    { plain n with parameters := some s.parameters, returns := some s.returns, ready := some true }
  | .setVar (some a) =>
    { plain n with
      visibility := some a.visibility
      fromOption := if a.fromOption then some true else none
      value := some a.value
      path := a.path }
  | .setVar none => { plain n with visibility := some .global, invalid := some true }
  | _ => plain n

end Entry

def Listing.ofTree (t : Tree) : Listing := ⟨t.nodes.map Entry.ofNode⟩

/-! ### In JSON -/

def Visibility.word : Visibility → Text
  | .local => "local".toList
  | .global => "global".toList

def Parameter.toJson (p : Parameter) : Json.Value :=
  .object [("name".toList, .text p.name), ("type".toList, .text p.type),
    ("defaultValue".toList, .text p.default)]

/-- A member that is left out if it has no value. -/
def optionalMember (key : Text) (toJson : α → Json.Value) (a : Option α) :
    List (Text × Json.Value) :=
  (a.map fun a => (key, toJson a)).toList

def Entry.toJson (e : Entry) : Json.Value :=
  .object ([("line_no".toList, .number e.line), ("depth".toList, .number e.depth)] ++
    optionalMember "parent".toList .number e.parent ++
    [("node_type".toList, .text e.tag), ("content".toList, .text e.content)] ++
    optionalMember "comment".toList .text e.comment ++
    optionalMember "name".toList .text e.name ++
    optionalMember "params".toList (fun ps => .array (ps.map Parameter.toJson)) e.parameters ++
    optionalMember "return".toList .text e.returns ++
    optionalMember "ready".toList .bool e.ready ++
    optionalMember "visibility".toList (fun v => .text v.word) e.visibility ++
    optionalMember "from_option".toList .bool e.fromOption ++
    optionalMember "set_value".toList .text e.value ++
    optionalMember "path".toList (fun segments => .array (segments.map .text)) e.path ++
    optionalMember "invalid".toList .bool e.invalid)

def Listing.toJson (l : Listing) : Json.Value :=
  .object [("nodes".toList, .array (l.entries.map Entry.toJson))]

namespace Outline

mutual

def Item.toJson : Item → Json.Value
  | ⟨label, kind, line, children⟩ =>
    .object [("label".toList, .text label), ("nodeType".toList, .text kind.tag),
      ("line".toList, .number line), ("children".toList, .array (itemsToJson children))]

def itemsToJson : List Item → List Json.Value
  | [] => []
  | item :: rest => item.toJson :: itemsToJson rest

end

end Outline

def listingText (options : ParseOptions) (text : Text) : Text :=
  (Listing.ofTree (parse options text)).toJson.print

def outlineText (options : ParseOptions) (text : Text) : Text :=
  (Json.Value.array (Outline.itemsToJson (Outline.ofTree (parse options text)))).print

end ScriptAtlas
