import ScriptAtlas.Text.Basic

/-!
What a reader of scripts can choose: how deep a tab indents, whether the lines
of an options block count as option entries, which files of a directory are
scripts and whether their symbols are collected for completion.
-/
namespace ScriptAtlas

/-- How the lines of a script are read. -/
structure ParseOptions where
  /-- The indentation depth that one tab contributes. -/
  tabWidth : Nat := 4
  /-- Whether the lines directly under an options block are option entries. -/
  classifyOptions : Bool := false
deriving DecidableEq, Repr

/-- How a project of scripts is read. -/
structure IndexOptions where
  parse : ParseOptions := {}
  /-- The file extension of scripts, without its dot. -/
  extension : Text := "sk".toList
  /-- Whether a project keeps the symbols of its scripts for completion. -/
  crossAutoComplete : Bool := true
deriving DecidableEq, Repr

end ScriptAtlas
