import ScriptAtlas.Json.Record
import ScriptAtlas.Listing.Basic

/-!
Reading listings from JSON. An entry needs its line, depth, kind and content;
the rest may be missing or `null`. As an array it needs all its fields.
-/
namespace ScriptAtlas
namespace Json

/-- Takes a field of a draft that must not be missing. -/
def given (name : String) (a : Option α) : Except Cause α :=
  match a with
  | some a => .ok a
  | none => .error (.missingField name.toList)

/-- The fault cause of an array that is too short for its record. -/
def shortArray (expected : String) (length : Nat) : Except Cause α :=
  .error (.wrongLength length expected.toList)

/-! ### Visibilities -/

/-- The visibility that a word names, read just before the cursor. -/
def visibilityOf (word : Text) (k : Cursor) : Outcome Visibility :=
  if word = Visibility.local.word then .ok (.local, k)
  else if word = Visibility.global.word then .ok (.global, k)
  else .error (k.here (.unknownVisibility word))

/-- Reads a visibility: its word, or an object with its word as the only key
    and `null` as the value. -/
def readVisibility (k : Cursor) : Except Fault (Visibility × Cursor) := do
  let k := k.passSpace
  match k.rest with
  | [] => throw (k.ahead (.endOf .value))
  | '"' :: _ =>
    let (word, k) ← readText k.skip
    visibilityOf word k
  | '\x7b' :: _ =>
    let (more, k) ← nextKey true k.skip
    unless more do throw (k.ahead .expectedValue)
    let (word, k) ← readText k.skip
    let (v, k) ← visibilityOf word k
    let ((), k) ← readColon k
    let ((), k) ← readNull k
    let k := k.passSpace
    match k.rest with
    | '\x7d' :: _ => return (v, k.skip)
    | [] => throw (k.here (.endOf .object))
    | _ => throw (k.here .expectedValue)
  | _ => throw (k.ahead .expectedValue)

/-! ### Parameters -/

structure ParameterDraft where
  name : Option Text := none
  type : Option Text := none
  default : Option Text := none

def parameterRecord : Record ParameterDraft Parameter where
  expected := "struct MethodParameter".toList
  fields :=
    [.of "name".toList (·.name) (fun d s => { d with name := some s }) readString,
     .of "type".toList (·.type) (fun d s => { d with type := some s }) readString,
     .of "defaultValue".toList (·.default) (fun d s => { d with default := some s }) readString]
  draft := {}
  finish d := do
    return ⟨← given "name" d.name, ← given "type" d.type, ← given "defaultValue" d.default⟩
  cut count _ := shortArray "struct MethodParameter with 3 elements" count

/-! ### Entries -/

structure EntryDraft where
  line : Option Nat := none
  depth : Option Nat := none
  parent : Option (Option Nat) := none
  tag : Option Text := none
  content : Option Text := none
  comment : Option (Option Text) := none
  name : Option (Option Text) := none
  parameters : Option (Option (List Parameter)) := none
  returns : Option (Option Text) := none
  ready : Option (Option Bool) := none
  visibility : Option (Option Visibility) := none
  fromOption : Option (Option Bool) := none
  value : Option (Option Text) := none
  path : Option (Option (List Text)) := none
  invalid : Option (Option Bool) := none

def EntryDraft.complete (d : EntryDraft) : Except Cause Entry := do
  let line ← given "line_no" d.line
  let depth ← given "depth" d.depth
  let tag ← given "node_type" d.tag
  let content ← given "content" d.content
  return {
    line, depth, tag, content
    parent := d.parent.join
    comment := d.comment.join
    name := d.name.join
    parameters := d.parameters.join
    returns := d.returns.join
    ready := d.ready.join
    visibility := d.visibility.join
    fromOption := d.fromOption.join
    value := d.value.join
    path := d.path.join
    invalid := d.invalid.join }

def entryRecord : Record EntryDraft Entry where
  expected := "struct NodeOutput".toList
  fields :=
    [.of "line_no".toList (·.line) (fun d n => { d with line := some n }) readNat,
     .of "depth".toList (·.depth) (fun d n => { d with depth := some n }) readNat,
     .of "parent".toList (·.parent) (fun d n => { d with parent := some n })
      (readOptional readNat),
     .of "node_type".toList (·.tag) (fun d s => { d with tag := some s }) readString,
     .of "content".toList (·.content) (fun d s => { d with content := some s }) readString,
     .of "comment".toList (·.comment) (fun d s => { d with comment := some s })
      (readOptional readString),
     .of "name".toList (·.name) (fun d s => { d with name := some s })
      (readOptional readString),
     .of "params".toList (·.parameters) (fun d ps => { d with parameters := some ps })
      (readOptional (readList parameterRecord.read)),
     .of "return".toList (·.returns) (fun d s => { d with returns := some s })
      (readOptional readString),
     .of "ready".toList (·.ready) (fun d b => { d with ready := some b })
      (readOptional readBool),
     .of "visibility".toList (·.visibility) (fun d v => { d with visibility := some v })
      (readOptional readVisibility),
     .of "from_option".toList (·.fromOption) (fun d b => { d with fromOption := some b })
      (readOptional readBool),
     .of "set_value".toList (·.value) (fun d s => { d with value := some s })
      (readOptional readString),
     .of "path".toList (·.path) (fun d p => { d with path := some p })
      (readOptional (readList readString)),
     .of "invalid".toList (·.invalid) (fun d b => { d with invalid := some b })
      (readOptional readBool)]
  draft := {}
  finish d := d.complete
  cut count _ := shortArray "struct NodeOutput with 15 elements" count

/-! ### Listings -/

/-- How a listing is read; its draft is the list of its entries. -/
def listingRecord : Record (Option (List Entry)) Listing where
  expected := "struct ParsedFile".toList
  fields := [.of "nodes".toList id (fun _ es => some es) (readList entryRecord.read)]
  draft := none
  finish d := (given "nodes" d).map Listing.mk
  cut count _ := shortArray "struct ParsedFile with 1 element" count

end Json

def Listing.ofJson? (text : Text) : Except Json.Fault Listing :=
  Json.readWhole Json.listingRecord.read text

end ScriptAtlas
