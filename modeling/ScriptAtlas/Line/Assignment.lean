import ScriptAtlas.Text.Blank
import ScriptAtlas.Text.Cut
import ScriptAtlas.Text.Utf8

/-!
Assignments, written `set {name::path} to value`. A name that starts with `_`
is local, one that starts with `@` is global and comes from an option. The form
`set {{name}::path} to value` addresses an element of a list variable: the path
follows the inner braces.
-/
namespace ScriptAtlas

/-- Where a variable can be seen. -/
inductive Visibility
  | «local»
  | global
deriving DecidableEq, Repr

/-- An assignment to a variable. -/
structure Assignment where
  /-- The name of the variable without the mark of its visibility. -/
  name : Text
  visibility : Visibility
  /-- Whether the variable comes from an option. -/
  fromOption : Bool
  value : Text
  /-- The path inside the variable, for a line that has a path separator. -/
  path : Option (List Text)
deriving DecidableEq, Repr

namespace Assignment

/-- The separator of the segments of a path. -/
def pathMark : Text := "::".toList

/-- What stands in braces: the part before the path and the segments of the path. -/
def target (inner : Text) : Text × List Text :=
  match Text.cutAtText pathMark inner with
  | some (base, rest) => (base, Text.piecesBy pathMark rest)
  | none => (inner, [])

/-- The segments that follow the inner braces of the element form, and what
    stands after its outer braces. -/
def element (after : Text) : List Text × Text :=
  let rest := (Text.afterPrefix pathMark after).getD after
  let (path, tail) := (Text.cutAt '}' rest).getD (rest, [])
  (Text.piecesBy pathMark path, tail)

/-- The name, visibility and origin of a variable, from the mark before its name. -/
def variableOf : Text → Text × Visibility × Bool
  | '_' :: name => (name, .local, false)
  | '@' :: name => (name, .global, true)
  | name => (name, .global, false)

theorem variableOf_of_unsigned {base : Text} (shown : base.head? ≠ some '_') (own : base.head? ≠ some '@') :
    variableOf base = (base, .global, false) := by
  rw [variableOf]
  · rintro name rfl
    exact shown rfl
  · rintro name rfl
    exact own rfl

/-- Whether a line has the element form, judged by what follows its first three
    bytes, if a character ends there. -/
def elementForm? (line : Text) : Option Bool :=
  (Text.dropBytes 3 line).map fun rest => "\x7b\x7b".toList.isPrefixOf (Text.trimStart rest)

/-- The assignment that a line makes, if it can be taken apart. -/
def ofLine? (line : Text) : Option Assignment := do
  let isElement ← elementForm? line
  let opened ← (Text.pieces '{' line)[if isElement then 2 else 1]?
  let (inner, after) ← Text.cutAt '}' opened
  let (base, direct) := target inner
  let (segments, tail) := if isElement then element after else (direct, after)
  let (name, visibility, fromOption) := variableOf base
  let (_, value) ← Text.cutAtText "to".toList tail
  some ⟨name, visibility, fromOption, Text.trim value,
    if Text.hasPart pathMark line then some segments else none⟩

end Assignment
end ScriptAtlas
