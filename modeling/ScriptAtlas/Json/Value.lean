import ScriptAtlas.Text.Basic

/-!
JSON values and their printed form: two spaces for each level, one element or
member a line, a space after each colon, and nothing between the brackets of
an empty array or object. Members are printed in the order they have.
-/
namespace ScriptAtlas.Json

/-- A JSON value. Its numbers are natural. -/
inductive Value
  | null
  | bool (b : Bool)
  | number (n : Nat)
  | text (s : Text)
  | array (items : List Value)
  | object (members : List (Text × Value))
deriving Repr

/-- Two hexadecimal digits in lower case. -/
def twoDigits (n : Nat) : Text := [Nat.digitChar (n / 16 % 16), Nat.digitChar (n % 16)]

/-- A character between quotes. Only the quotation mark, the backslash and the
    control characters below the space are escaped. -/
def printedChar (c : Char) : Text :=
  match c with
  | '"' => ['\\', '"']
  | '\\' => ['\\', '\\']
  | '\x08' => ['\\', 'b']
  | '\x0c' => ['\\', 'f']
  | '\n' => ['\\', 'n']
  | '\r' => ['\\', 'r']
  | '\t' => ['\\', 't']
  | c => if c.toNat < 32 then ['\\', 'u', '0', '0'] ++ twoDigits c.toNat else [c]

/-- A text between quotes. -/
def printedText (s : Text) : Text := '"' :: (s.flatMap printedChar ++ ['"'])

/-- The spaces before a line of a level. -/
def margin (level : Nat) : Text := Text.repeated level [' ', ' ']

mutual

/-- The printed form of a value that begins on a line of a level. -/
def Value.printAt (level : Nat) : Value → Text
  | .null => "null".toList
  | .bool true => "true".toList
  | .bool false => "false".toList
  | .number n => Text.ofNat n
  | .text s => printedText s
  | .array [] => ['[', ']']
  | .array (v :: rest) =>
    ['[', '\n'] ++ printItems (level + 1) (v :: rest) ++ ('\n' :: margin level ++ [']'])
  | .object [] => ['\x7b', '\x7d']
  | .object (m :: rest) =>
    ['\x7b', '\n'] ++ printMembers (level + 1) (m :: rest) ++ ('\n' :: margin level ++ ['\x7d'])

def printItems (level : Nat) : List Value → Text
  | [] => []
  | [v] => margin level ++ v.printAt level
  | v :: w :: rest => margin level ++ v.printAt level ++ [',', '\n'] ++ printItems level (w :: rest)

def printMembers (level : Nat) : List (Text × Value) → Text
  | [] => []
  | [(key, v)] => margin level ++ printedText key ++ [':', ' '] ++ v.printAt level
  | (key, v) :: m :: rest =>
    margin level ++ printedText key ++ [':', ' '] ++ v.printAt level ++ [',', '\n'] ++
      printMembers level (m :: rest)

end

def Value.print (v : Value) : Text := v.printAt 0

end ScriptAtlas.Json
