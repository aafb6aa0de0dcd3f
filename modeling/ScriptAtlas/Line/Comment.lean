import ScriptAtlas.Text.Basic

/-!
The trailing comment of a line starts at the first `#` outside double quotes.
Every quotation mark opens or closes a quotation, whatever stands before it,
so a `#` is outside exactly when an even number of marks precedes it.
-/
namespace ScriptAtlas.Comment

/-- The code of a line and its comment, where `inQuotes` tells whether a
    quotation is open at the beginning. -/
def splitFrom (inQuotes : Bool) : Text → Text × Option Text
  | [] => ([], none)
  | c :: s =>
    if c = '#' ∧ inQuotes = false then ([], some (c :: s))
    else
      let (code, comment) := splitFrom (inQuotes != (c == '"')) s
      (c :: code, comment)

/-- The trailing comment of a line with its `#`, if there is one. -/
def ofLine (s : Text) : Option Text := (splitFrom false s).2

def code (s : Text) : Text := (splitFrom false s).1

end ScriptAtlas.Comment
