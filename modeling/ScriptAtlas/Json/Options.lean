import ScriptAtlas.Options
import ScriptAtlas.Json.Record

/-!
Options in JSON. An option that is not given keeps its default.
-/
namespace ScriptAtlas
namespace Json

structure ParseDraft where
  tabWidth : Option Nat := none
  classifyOptions : Option Bool := none

/-- Parse options with the defaults for what a draft does not give. -/
def ParseDraft.complete (d : ParseDraft) : ParseOptions :=
  let default : ParseOptions := {}
  ⟨d.tabWidth.getD default.tabWidth, d.classifyOptions.getD default.classifyOptions⟩

/-- How parse options are read. -/
def parseRecord : Record ParseDraft ParseOptions where
  expected := "struct ParseOptions".toList
  fields :=
    [.of "tab_width".toList (·.tabWidth) (fun d n => { d with tabWidth := some n }) readNat,
     .of "classify_options".toList (·.classifyOptions)
      (fun d b => { d with classifyOptions := some b }) readBool]
  draft := {}
  finish d := .ok d.complete
  cut _ d := .ok d.complete

structure IndexDraft where
  parse : Option ParseOptions := none
  extension : Option Text := none
  crossAutoComplete : Option Bool := none

/-- Index options with the defaults for what a draft does not give. -/
def IndexDraft.complete (d : IndexDraft) : IndexOptions :=
  let default : IndexOptions := {}
  ⟨d.parse.getD default.parse, d.extension.getD default.extension,
    d.crossAutoComplete.getD default.crossAutoComplete⟩

def indexRecord : Record IndexDraft IndexOptions where
  expected := "struct IndexOptions".toList
  fields :=
    [.of "parse".toList (·.parse) (fun d p => { d with parse := some p }) parseRecord.read,
     .of "extension".toList (·.extension) (fun d s => { d with extension := some s }) readString,
     .of "cross_auto_complete".toList (·.crossAutoComplete)
      (fun d b => { d with crossAutoComplete := some b }) readBool]
  draft := {}
  finish d := .ok d.complete
  cut _ d := .ok d.complete

end Json

def ParseOptions.ofJson? (text : Text) : Except Json.Fault ParseOptions :=
  Json.readWhole Json.parseRecord.read text

def IndexOptions.ofJson? (text : Text) : Except Json.Fault IndexOptions :=
  Json.readWhole Json.indexRecord.read text

end ScriptAtlas
