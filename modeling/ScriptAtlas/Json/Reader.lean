import ScriptAtlas.Json.Ignored

/-!
Reading values of a known type. A value of another type is a fault that names
what was found, behind a scalar and before an array or an object.
-/
namespace ScriptAtlas.Json

/-- Reads what a value is, for the report that it is not what was expected. -/
def findValue (k : Cursor) : Outcome Found :=
  match k.rest with
  | 'n' :: _ => (readWord "ull".toList k.skip).map fun ((), k) => (.null, k)
  | 't' :: _ => (readWord "rue".toList k.skip).map fun ((), k) => (.bool true, k)
  | 'f' :: _ => (readWord "alse".toList k.skip).map fun ((), k) => (.bool false, k)
  | '"' :: _ => (readText k.skip).map fun (s, k) => (.text s, k)
  | '[' :: _ => .ok (.array, k)
  | '\x7b' :: _ => .ok (.object, k)
  | [] => .error (k.ahead .expectedValue)
  | c :: _ =>
    if c = '-' || c.isDigit then (readNumber k).map fun (n, k) => (.number n, k)
    else .error (k.ahead .expectedValue)

/-- The fault of a value that is not of the expected type. -/
def mismatch (expected : Text) (k : Cursor) : Fault :=
  if k.rest.isEmpty then k.ahead (.endOf .value)
  else match findValue k with
    | .error f => f
    | .ok (found, k) => k.here (.wrongType found expected)

def readNat (k : Cursor) : Outcome Nat :=
  let k := k.passSpace
  if k.rest.head?.any fun c => c == '-' || c.isDigit then
    match readNumber k with
    | .error f => .error f
    | .ok (.natural n, k) => .ok (n, k)
    | .ok (.negative n, k) => .error (k.here (.wrongSign n))
    | .ok (.fraction s x, k) =>
      .error (k.here (.wrongType (.number (.fraction s x)) "usize".toList))
  else .error (mismatch "usize".toList k)

def readBool (k : Cursor) : Outcome Bool :=
  let k := k.passSpace
  match k.rest with
  | 't' :: _ => (readWord "rue".toList k.skip).map fun ((), k) => (true, k)
  | 'f' :: _ => (readWord "alse".toList k.skip).map fun ((), k) => (false, k)
  | _ => .error (mismatch "a boolean".toList k)

def readString (k : Cursor) : Outcome Text :=
  let k := k.passSpace
  match k.rest with
  | '"' :: _ => readText k.skip
  | _ => .error (mismatch "a string".toList k)

def readNull (k : Cursor) : Outcome Unit :=
  let k := k.passSpace
  match k.rest with
  | 'n' :: _ => readWord "ull".toList k.skip
  | _ => .error (mismatch "unit".toList k)

/-- Reads a value that may be `null` instead. -/
def readOptional (read : Cursor → Outcome α) (k : Cursor) : Outcome (Option α) :=
  let k := k.passSpace
  match k.rest with
  | 'n' :: _ => (readWord "ull".toList k.skip).map fun ((), k) => (none, k)
  | _ => (read k).map fun (a, k) => (some a, k)

/-! ### Arrays and objects -/

/-- Whether another element of an array follows, with the cursor before it or
    before the closing bracket. -/
def nextItem (first : Bool) (k : Cursor) : Outcome Bool :=
  let k := k.passSpace
  match k.rest with
  | [] => .error (k.ahead (.endOf .array))
  | ']' :: _ => .ok (false, k)
  | c :: _ =>
    if first then .ok (true, k)
    else if c = ',' then
      let k := k.skip.passSpace
      match k.rest with
      | [] => .error (k.ahead (.endOf .value))
      | ']' :: _ => .error (k.ahead .trailingComma)
      | _ => .ok (true, k)
    else .error (k.ahead .expectedArrayEnd)

/-- Whether another member of an object follows, with the cursor before its key
    or before the closing brace. -/
def nextKey (first : Bool) (k : Cursor) : Outcome Bool :=
  let k := k.passSpace
  match k.rest with
  | [] => .error (k.ahead (.endOf .object))
  | '\x7d' :: _ => .ok (false, k)
  | c :: _ =>
    if first then
      if c = '"' then .ok (true, k) else .error (k.ahead .keyNotText)
    else if c = ',' then
      let k := k.skip.passSpace
      match k.rest with
      | [] => .error (k.ahead (.endOf .value))
      | '"' :: _ => .ok (true, k)
      | '\x7d' :: _ => .error (k.ahead .trailingComma)
      | _ => .error (k.ahead .keyNotText)
    else .error (k.ahead .expectedObjectEnd)

/-- How the end of an array or object is read: where that leads, and what is
    wrong if it is not the end. -/
structure Closing where
  cursor : Cursor
  fault : Option Fault

def closeArray (k : Cursor) : Closing :=
  let k := k.passSpace
  match k.rest with
  | ']' :: _ => ⟨k.skip, none⟩
  | ',' :: _ =>
    let k := k.skip.passSpace
    ⟨k, some (k.ahead (if k.rest.head? = some ']' then .trailingComma else .trailingText))⟩
  | [] => ⟨k, some (k.ahead (.endOf .array))⟩
  | _ => ⟨k, some (k.ahead .trailingText)⟩

def closeObject (k : Cursor) : Closing :=
  let k := k.passSpace
  match k.rest with
  | '\x7d' :: _ => ⟨k.skip, none⟩
  | ',' :: _ => ⟨k, some (k.ahead .trailingComma)⟩
  | [] => ⟨k, some (k.ahead (.endOf .object))⟩
  | _ => ⟨k, some (k.ahead .trailingText)⟩

/-- The result of an array or object once its end has been read. What was wrong
    inside is placed behind the end, and comes before what is wrong there. -/
def Closing.settle (c : Closing) (inside : Except Cause α) : Outcome α :=
  match inside with
  | .error cause => .error (c.cursor.here cause)
  | .ok a =>
    match c.fault with
    | some f => .error f
    | none => .ok (a, c.cursor)

/-- Reads the elements of an array, in at most as many steps as the number says. -/
def readItemsIn (read : Cursor → Outcome α) : Nat → Bool → Cursor → Except Fault (List α × Cursor)
  | 0, _, k => .error (k.here (.endOf .array))
  | fuel + 1, first, k => do
    let (more, k) ← nextItem first k
    if more then
      let (a, k) ← read k
      let (rest, k) ← readItemsIn read fuel false k
      return (a :: rest, k)
    else return ([], k)

def readList (read : Cursor → Outcome α) (k : Cursor) : Except Fault (List α × Cursor) := do
  let k := k.passSpace
  match k.rest with
  | '[' :: _ =>
    let (items, k) ← readItemsIn read (k.rest.length + 1) true k.skip
    (closeArray k).settle (.ok items)
  | _ => throw (mismatch "a sequence".toList k)

def readWhole (read : Cursor → Outcome α) (text : Text) : Except Fault α := do
  let (a, k) ← read ⟨text, {}⟩
  let k := k.passSpace
  if k.rest.isEmpty then return a else throw (k.ahead .trailingText)

end ScriptAtlas.Json
