import ScriptAtlas.Json.Reader

/-!
Records in JSON. A record is written as an object, its fields in any order and
mixed with members of other keys, which are passed over; or as an array of its
fields in the order of their declaration. A field may be given only once.
-/
namespace ScriptAtlas.Json

/-- A field of a record that is being read into a draft. -/
structure Field (δ : Type) where
  name : Text
  /-- Whether a draft has the field already. -/
  isGiven : δ → Bool
  /-- Reads the field into a draft. -/
  read : δ → Cursor → Outcome δ

/-- A field that is kept in a part of the draft. -/
def Field.of (name : Text) (get : δ → Option β) (set : δ → β → δ) (read : Cursor → Outcome β) :
    Field δ :=
  ⟨name, fun d => (get d).isSome, fun d k => (read k).map fun (b, k) => (set d b, k)⟩

/-- How a record is read: through a draft that holds the fields given so far. -/
structure Record (δ α : Type) where
  /-- How reports call the record. -/
  expected : Text
  fields : List (Field δ)
  draft : δ
  /-- The record of a draft, if no field that it needs is missing. -/
  finish : δ → Except Cause α
  /-- The record of a draft from an array that has ended after some fields. -/
  cut : Nat → δ → Except Cause α

namespace Record

/-- Reads the members of an object, in at most as many steps as the number says. -/
def readMembersIn (r : Record δ α) : Nat → Bool → δ → Cursor →
    Except Fault (Except Cause α × Cursor)
  | 0, _, _, k => .error (k.here (.endOf .object))
  | fuel + 1, first, d, k => do
    let (more, k) ← nextKey first k
    if !more then return (r.finish d, k)
    let (key, k) ← readText k.skip
    match r.fields.find? (·.name == key) with
    | none =>
      let ((), k) ← readColon k
      let ((), k) ← skipValue k
      readMembersIn r fuel false d k
    | some field =>
      if field.isGiven d then return (.error (.duplicateField key), k)
      let ((), k) ← readColon k
      let (d, k) ← field.read d k
      readMembersIn r fuel false d k

/-- Reads the fields that are left of an array. -/
def readFields (r : Record δ α) : List (Field δ) → Nat → δ → Cursor →
    Except Fault (Except Cause α × Cursor)
  | [], _, d, k => .ok (r.finish d, k)
  | field :: rest, count, d, k => do
    let (more, k) ← nextItem (count == 0) k
    if !more then return (r.cut count d, k)
    let (d, k) ← field.read d k
    readFields r rest (count + 1) d k

def read (r : Record δ α) (k : Cursor) : Except Fault (α × Cursor) := do
  let k := k.passSpace
  match k.rest with
  | '[' :: _ =>
    let (inside, k) ← r.readFields r.fields 0 r.draft k.skip
    (closeArray k).settle inside
  | '\x7b' :: _ =>
    let (inside, k) ← r.readMembersIn (k.rest.length + 1) true r.draft k.skip
    (closeObject k).settle inside
  | _ => throw (mismatch r.expected k)

end Record
end ScriptAtlas.Json
