import ScriptAtlas.Json.Fault
import ScriptAtlas.Path.Basic

/-!
What can go wrong outside of reading scripts: reading files, walking through
folders and reading JSON. Reading a script never fails.
-/
namespace ScriptAtlas

/-- What can go wrong. -/
inductive Error
  /-- A script is not valid UTF-8. -/
  | unreadable (file : Path)
  /-- There is nothing where a folder is looked for. -/
  | missing (folder : Path)
  /-- The way to a folder leads through a file. -/
  | notFolder (folder : Path)
  | json (fault : Json.Fault)
deriving DecidableEq, Repr

/-- The report that a folder cannot be walked through. -/
def Error.walkMessage (folder : Path) (reason : Text) : Text :=
  "failed to walk project directory: ".toList ++ folder.spelling ++
    ": IO error for operation on ".toList ++ folder.spelling ++ ": ".toList ++ reason

def Error.message : Error → Text
  | unreadable file =>
    "failed to read ".toList ++ file.spelling ++ ": stream did not contain valid UTF-8".toList
  | missing folder => walkMessage folder "No such file or directory (os error 2)".toList
  | notFolder folder => walkMessage folder "Not a directory (os error 20)".toList
  | json fault => "invalid json: ".toList ++ fault.message

end ScriptAtlas
