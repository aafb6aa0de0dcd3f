import ScriptAtlas.Decimal.Shortest
import ScriptAtlas.Text.Quoted

/-!
What can be wrong with a JSON text, and where. A fault is one cause at one
place; the text is read from left to right and the first fault is the one that
is reported.
-/
namespace ScriptAtlas.Json

/-- A number of a JSON text. Those that are no 64-bit integers are read as
    binary fractions. -/
inductive Number
  | natural (n : Nat)
  /-- The number `-n`. -/
  | negative (n : Nat)
  | fraction (isNegative : Bool) (magnitude : Decimal.Binary64)
deriving DecidableEq, Repr

/-- The value that stands where another one is expected. -/
inductive Found
  | null
  | bool (b : Bool)
  | number (n : Number)
  | text (s : Text)
  | array
  | object
deriving DecidableEq, Repr

/-- What was being read when the text ended. -/
inductive Part
  | value
  | object
  | array
  | text
deriving DecidableEq, Repr

/-- What is wrong with a JSON text. -/
inductive Cause
  | endOf (part : Part)
  | expectedColon
  | expectedArrayEnd
  | expectedObjectEnd
  | expectedWord
  | expectedValue
  | keyNotText
  | trailingComma
  | trailingText
  | badNumber
  | numberTooLarge
  | badEscape
  | unpairedSurrogate
  | brokenPair
  | controlCharacter
  | duplicateField (name : Text)
  | missingField (name : Text)
  /-- A visibility that is neither local nor global. -/
  | unknownVisibility (word : Text)
  /-- An array too short for the record it stands for. -/
  | wrongLength (length : Nat) (expected : Text)
  | wrongType (found : Found) (expected : Text)
  | wrongSign (n : Nat)
deriving DecidableEq, Repr

/-- A text between backticks. -/
def ticked (s : Text) : Text := '\x60' :: (s ++ ['\x60'])

def Number.text : Number → Text
  | natural n => "integer ".toList ++ ticked (Text.ofNat n)
  | negative n => "integer ".toList ++ ticked ('-' :: Text.ofNat n)
  | fraction isNegative x =>
    "floating point ".toList ++ ticked ((if isNegative then ['-'] else []) ++ x.text)

def Found.description : Found → Text
  | null => "null".toList
  | bool b => "boolean ".toList ++ ticked (if b then "true".toList else "false".toList)
  | number n => n.text
  | text s => "string ".toList ++ Text.quoted s
  | array => "sequence".toList
  | object => "map".toList

def Part.description : Part → Text
  | value => "a value".toList
  | object => "an object".toList
  | array => "a list".toList
  | text => "a string".toList

def Cause.message : Cause → Text
  | endOf part => "EOF while parsing ".toList ++ part.description
  | expectedColon => "expected ".toList ++ ticked [':']
  | expectedArrayEnd => "expected ".toList ++ ticked [','] ++ " or ".toList ++ ticked [']']
  | expectedObjectEnd => "expected ".toList ++ ticked [','] ++ " or ".toList ++ ticked ['\x7d']
  | expectedWord => "expected ident".toList
  | expectedValue => "expected value".toList
  | keyNotText => "key must be a string".toList
  | trailingComma => "trailing comma".toList
  | trailingText => "trailing characters".toList
  | badNumber => "invalid number".toList
  | numberTooLarge => "number out of range".toList
  | badEscape => "invalid escape".toList
  | unpairedSurrogate => "lone leading surrogate in hex escape".toList
  | brokenPair => "unexpected end of hex escape".toList
  | controlCharacter =>
    "control character (\\u0000-\\u001F) found while parsing a string".toList
  | duplicateField name => "duplicate field ".toList ++ ticked name
  | missingField name => "missing field ".toList ++ ticked name
  | unknownVisibility word =>
    "unknown variant ".toList ++ ticked word ++ ", expected ".toList ++ ticked "local".toList ++
      " or ".toList ++ ticked "global".toList
  | wrongLength length expected =>
    "invalid length ".toList ++ Text.ofNat length ++ ", expected ".toList ++ expected
  | wrongType found expected =>
    "invalid type: ".toList ++ found.description ++ ", expected ".toList ++ expected
  | wrongSign n =>
    "invalid value: ".toList ++ (Number.negative n).text ++ ", expected usize".toList

/-- A place in a text: the number of the line, from 1, and the bytes of it that
    have been read. -/
structure Place where
  line : Nat := 1
  column : Nat := 0
deriving DecidableEq, Repr

structure Fault where
  cause : Cause
  place : Place
deriving DecidableEq, Repr

def Fault.message (f : Fault) : Text :=
  f.cause.message ++ " at line ".toList ++ Text.ofNat f.place.line ++ " column ".toList ++
    Text.ofNat f.place.column

end ScriptAtlas.Json
