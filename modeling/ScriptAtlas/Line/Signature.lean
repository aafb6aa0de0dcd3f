import ScriptAtlas.Text.Blank
import ScriptAtlas.Text.Cut

/-!
The signature of a function, written
`function name(a: type, b: type = "default") :: return`.
A line without parentheses has none. A part of the parameter list without a
colon, or without a name before it, is no parameter. Without a return clause
the function returns `void`.
-/
namespace ScriptAtlas

structure Parameter where
  name : Text
  type : Text
  /-- The default value without its quotation marks, empty if there is none. -/
  default : Text
deriving DecidableEq, Repr

def Parameter.hasDefault (p : Parameter) : Bool := !p.default.isEmpty

/-- The parameter that a part of a list declares, written `name: type` or
    `name: type = default`. -/
def Parameter.ofText? (s : Text) : Option Parameter :=
  match Text.cutAt ':' (Text.trim s) with
  | none => none
  | some (name, rest) =>
    if (Text.trim name).isEmpty then none
    else match Text.cutAt '=' rest with
      | some (type, value) =>
        some ⟨Text.trim name, Text.trim type, Text.trim (Text.without ['"'] value)⟩
      | none => some ⟨Text.trim name, Text.trim rest, []⟩

structure Signature where
  name : Text
  parameters : List Parameter
  returns : Text
deriving DecidableEq, Repr

namespace Signature

/-- The separator between the parameter list and the return type. -/
def returnMark : Text := "::".toList

/-- The return type of a function without a return clause. -/
def noReturn : Text := "void".toList

/-- The name of the function, from the text before the parameter list: all
    that follows its first space. -/
def nameOf (head : Text) : Text := Text.trim (((Text.cutAt ' ' head).map (·.2)).getD [])

/-- The return type, from the whole line: what follows the first return mark,
    without colons. -/
def returnOf (line : Text) : Text :=
  match Text.cutAtText returnMark line with
  | some (_, rest) => Text.trim (Text.without [':'] rest)
  | none => noReturn

/-- The signature that a line declares, if the line has parentheses. -/
def ofLine? (line : Text) : Option Signature :=
  if line.contains ')' then
    (Text.cutAt '(' line).map fun (head, rest) =>
      ⟨nameOf head, (Text.pieces ',' (Text.before ')' rest)).filterMap Parameter.ofText?,
        returnOf line⟩
  else none

end Signature
end ScriptAtlas
