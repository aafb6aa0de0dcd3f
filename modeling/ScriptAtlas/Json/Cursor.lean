import ScriptAtlas.Json.Fault
import ScriptAtlas.Text.Utf8

/-!
A cursor is the rest of a text and the place that has been reached. A reader
takes a cursor and gives a result with the cursor behind it, or a fault. Faults
are placed either where the cursor stands or one byte further, on the character
that is in the way.
-/
namespace ScriptAtlas.Json

/-- The place behind a character. -/
def Place.past (p : Place) (c : Char) : Place :=
  if c = '\n' then ⟨p.line + 1, 0⟩ else ⟨p.line, p.column + c.utf8Size⟩

/-- The place some bytes further in a text, or at its end if it has fewer. -/
def Place.pastBytes (p : Place) : Nat → Text → Place
  | 0, _ => p
  | _, [] => p
  | n + 1, c :: s =>
    if c.utf8Size ≤ n + 1 then (p.past c).pastBytes (n + 1 - c.utf8Size) s
    else ⟨p.line, p.column + (n + 1)⟩

/-- The rest of a text and where it begins. -/
structure Cursor where
  rest : Text
  place : Place := {}
deriving DecidableEq, Repr

/-- What reading gives: a result and the cursor behind it, or a fault. -/
abbrev Outcome (α : Type) := Except Fault (α × Cursor)

namespace Cursor

/-- A fault where the cursor stands. -/
def here (k : Cursor) (cause : Cause) : Fault := ⟨cause, k.place⟩

/-- A fault on the next byte, or where the cursor stands at the end of the text. -/
def ahead (k : Cursor) (cause : Cause) : Fault := ⟨cause, k.place.pastBytes 1 k.rest⟩

def skip (k : Cursor) : Cursor :=
  match k.rest with
  | [] => k
  | c :: s => ⟨s, k.place.past c⟩

/-- The cursor behind the characters of a class. -/
def passFrom (p : Char → Bool) : Text → Place → Cursor
  | [], place => ⟨[], place⟩
  | c :: s, place => if p c then passFrom p s (place.past c) else ⟨c :: s, place⟩

/-- The cursor behind the next characters of a class. -/
def pass (p : Char → Bool) (k : Cursor) : Cursor := passFrom p k.rest k.place

end Cursor

/-- The white space between the parts of a JSON text. -/
def isSpace (c : Char) : Bool := c == ' ' || c == '\n' || c == '\t' || c == '\r'

def Cursor.passSpace (k : Cursor) : Cursor := k.pass isSpace

/-- Reads the remaining characters of a word. -/
def readWord : Text → Cursor → Outcome Unit
  | [], k => .ok ((), k)
  | c :: word, k =>
    match k.rest with
    | [] => .error (k.here (.endOf .value))
    | d :: _ => if d = c then readWord word k.skip else .error (k.ahead .expectedWord)

def readColon (k : Cursor) : Outcome Unit :=
  let k := k.passSpace
  match k.rest with
  | ':' :: _ => .ok ((), k.skip)
  | [] => .error (k.ahead (.endOf .object))
  | _ => .error (k.ahead .expectedColon)

end ScriptAtlas.Json
