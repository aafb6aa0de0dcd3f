import ScriptAtlas.Json.Cursor

/-!
Numbers in JSON texts. An integer of 64 bits is read exactly. Any other number
is read as a binary fraction: its digits make a significand of at most 64 bits,
the digits that do not fit only count for the exponent, and the significand is
then scaled by a power of ten.
-/
namespace ScriptAtlas.Json

/-- The greatest significand. -/
def significandLimit : Nat := Nat.pow 2 64 - 1

/-- The greatest exponent that is written out. -/
def exponentLimit : Nat := Nat.pow 2 31 - 1

/-- The greatest magnitude of a negative integer. -/
def negativeLimit : Nat := Nat.pow 2 63

def digitValue (c : Char) : Nat := c.toNat - '0'.toNat

def Cursor.atDigit (k : Cursor) : Bool := k.rest.head?.any Char.isDigit

def Cursor.atExponent (k : Cursor) : Bool := k.rest.head?.any fun c => c == 'e' || c == 'E'

/-- The cursor behind the next decimal digits. -/
def Cursor.passDigits (k : Cursor) : Cursor := k.pass Char.isDigit

/-- Digits that have been read: the number they extend a value to, and how many they are. -/
structure Gathered where
  value : Nat
  count : Nat
  cursor : Cursor

/-- Extends a value by the next digits as long as it stays within a limit. -/
def gatherFrom (limit : Nat) : Text → Place → Nat → Nat → Gathered
  | [], place, value, count => ⟨value, count, ⟨[], place⟩⟩
  | c :: s, place, value, count =>
    if c.isDigit ∧ value * 10 + digitValue c ≤ limit then
      gatherFrom limit s (place.past c) (value * 10 + digitValue c) (count + 1)
    else ⟨value, count, ⟨c :: s, place⟩⟩

/-- Extends a value by the next digits as long as it stays within a limit. -/
def gather (limit value : Nat) (k : Cursor) : Gathered := gatherFrom limit k.rest k.place value 0

/-- The binary fraction of a significand with a decimal exponent. -/
def fractionOf (isNegative : Bool) (significand : Nat) (exponent : Int) (k : Cursor) :
    Outcome Number :=
  match Decimal.Binary64.ofDecimal? significand exponent with
  | some x => .ok (.fraction isNegative x, k)
  | none => .error (k.here .numberTooLarge)

/-- Reads an exponent from its mark on. One that is too large to be written out
    makes the number zero, unless it makes the number too large. -/
def readExponent (isNegative : Bool) (significand : Nat) (exponent : Int) (k : Cursor) :
    Outcome Number :=
  let k := k.skip
  let grows := k.rest.head? != some '-'
  let k := if k.rest.head?.any fun c => c == '+' || c == '-' then k.skip else k
  if k.atDigit then
    let g := gather exponentLimit 0 k
    if g.cursor.atDigit then
      if grows && significand != 0 then .error (g.cursor.skip.here .numberTooLarge)
      else .ok (.fraction isNegative ⟨0, Decimal.Binary64.leastExponent⟩, g.cursor.passDigits)
    else
      fractionOf isNegative significand (if grows then exponent + g.value else exponent - g.value)
        g.cursor
  else if k.rest.isEmpty then .error (k.here (.endOf .value))
  else .error (k.ahead .badNumber)

/-- Reads the digits behind a decimal point from the point on. -/
def readPlaces (isNegative : Bool) (significand : Nat) (exponent : Int) (k : Cursor) :
    Outcome Number :=
  let g := gather significandLimit significand k.skip
  let behind := g.cursor.passDigits
  if g.count = 0 ∧ ¬ g.cursor.atDigit then
    .error (behind.ahead (if behind.rest.isEmpty then .endOf .value else .badNumber))
  else if behind.atExponent then
    readExponent isNegative g.value (exponent - g.count) behind
  else fractionOf isNegative g.value (exponent - g.count) behind

/-- Reads what follows the digits before a decimal point, where `dropped` of
    them did not fit into the significand. -/
def readTail (isNegative : Bool) (significand dropped : Nat) (k : Cursor) : Outcome Number :=
  if k.rest.head? = some '.' then readPlaces isNegative significand dropped k
  else if k.atExponent then readExponent isNegative significand dropped k
  else if dropped ≠ 0 then fractionOf isNegative significand dropped k
  else if !isNegative then .ok (.natural significand, k)
  else if 1 ≤ significand ∧ significand ≤ negativeLimit then .ok (.negative significand, k)
  else fractionOf true significand 0 k

/-- Reads a number behind its sign. -/
def readUnsigned (isNegative : Bool) (k : Cursor) : Outcome Number :=
  match k.rest with
  | [] => .error (k.here (.endOf .value))
  | '0' :: _ =>
    if k.skip.atDigit then .error (k.skip.ahead .badNumber) else readTail isNegative 0 0 k.skip
  | c :: _ =>
    if c.isDigit then
      let g := gather significandLimit 0 k
      let behind := g.cursor.passDigits
      readTail isNegative g.value (g.cursor.rest.length - behind.rest.length) behind
    else .error (k.ahead .badNumber)

def readNumber (k : Cursor) : Outcome Number :=
  if k.rest.head? = some '-' then readUnsigned true k.skip else readUnsigned false k

/-- Passes over an exponent from its mark on. -/
def skipExponent (k : Cursor) : Outcome Unit :=
  let k := k.skip
  let k := if k.rest.head?.any fun c => c == '+' || c == '-' then k.skip else k
  if k.atDigit then .ok ((), k.passDigits) else .error (k.ahead .badNumber)

/-- Passes over the digits behind a decimal point from the point on. -/
def skipPlaces (k : Cursor) : Outcome Unit :=
  if k.skip.atDigit then
    let k := k.skip.passDigits
    if k.atExponent then skipExponent k else .ok ((), k)
  else .error (k.skip.ahead .badNumber)

/-- Passes over a number behind its sign, whatever its size. -/
def skipUnsigned (k : Cursor) : Outcome Unit :=
  if k.atDigit then
    if k.rest.head? = some '0' ∧ k.skip.atDigit then .error (k.skip.ahead .badNumber)
    else
      let k := k.passDigits
      if k.rest.head? = some '.' then skipPlaces k
      else if k.atExponent then skipExponent k
      else .ok ((), k)
  else .error (k.ahead .badNumber)

def skipNumber (k : Cursor) : Outcome Unit :=
  if k.rest.head? = some '-' then skipUnsigned k.skip else skipUnsigned k

end ScriptAtlas.Json
