import ScriptAtlas.Json.Numeral
import ScriptAtlas.Json.Quotation

/-!
Passing over a value that is not kept. Any well-formed value may stand there,
nested as deeply as it likes; only its form is checked.
-/
namespace ScriptAtlas.Json

/-- Passes over a value that is not an array or an object. -/
def skipScalar (k : Cursor) : Outcome Unit :=
  match k.rest with
  | [] => .error (k.ahead (.endOf .value))
  | 'n' :: _ => readWord "ull".toList k.skip
  | 't' :: _ => readWord "rue".toList k.skip
  | 'f' :: _ => readWord "alse".toList k.skip
  | '"' :: _ => skipText k.skip
  | c :: _ => if c = '-' || c.isDigit then skipNumber k else .error (k.ahead .expectedValue)

/-- Passes over a key and the colon behind it. -/
def skipKey (k : Cursor) : Except Fault (Unit × Cursor) := do
  let k := k.passSpace
  match k.rest with
  | '"' :: _ =>
    let ((), k) ← skipText k.skip
    readColon k
  | [] => throw (k.ahead (.endOf .object))
  | _ => throw (k.ahead .keyNotText)

mutual

/-- Passes over a value. The number bounds the steps; a value never takes more
    than two for each of its characters. -/
def skipValueIn : Nat → Cursor → Except Fault (Unit × Cursor)
  | 0, k => .error (k.here (.endOf .value))
  | fuel + 1, k => do
    let k := k.passSpace
    match k.rest with
    | '[' :: _ =>
      let k := k.skip.passSpace
      match k.rest with
      | [] => throw (k.ahead (.endOf .array))
      | ']' :: _ => return ((), k.skip)
      | _ => skipItemsIn fuel k
    | '\x7b' :: _ =>
      let k := k.skip.passSpace
      match k.rest with
      | [] => throw (k.ahead (.endOf .object))
      | '\x7d' :: _ => return ((), k.skip)
      | _ => skipMembersIn fuel k
    | _ => skipScalar k

/-- Passes over the elements of an array, from one of them on. -/
def skipItemsIn : Nat → Cursor → Except Fault (Unit × Cursor)
  | 0, k => .error (k.here (.endOf .array))
  | fuel + 1, k => do
    let ((), k) ← skipValueIn fuel k
    let k := k.passSpace
    match k.rest with
    | ',' :: _ => skipItemsIn fuel k.skip
    | ']' :: _ => return ((), k.skip)
    | [] => throw (k.ahead (.endOf .array))
    | _ => throw (k.ahead .expectedArrayEnd)

/-- Passes over the members of an object, from one of them on. -/
def skipMembersIn : Nat → Cursor → Except Fault (Unit × Cursor)
  | 0, k => .error (k.here (.endOf .object))
  | fuel + 1, k => do
    let ((), k) ← skipKey k
    let ((), k) ← skipValueIn fuel k
    let k := k.passSpace
    match k.rest with
    | ',' :: _ => skipMembersIn fuel k.skip
    | '\x7d' :: _ => return ((), k.skip)
    | [] => throw (k.ahead (.endOf .object))
    | _ => throw (k.ahead .expectedObjectEnd)

end

def skipValue (k : Cursor) : Outcome Unit := skipValueIn (2 * k.rest.length + 1) k

end ScriptAtlas.Json
