import ScriptAtlas.Directory.Walk
import ScriptAtlas.Error
import ScriptAtlas.Symbol.Index

/-!
Indexing the scripts of a folder. Every visited file with the extension of
scripts, up to the case of ASCII letters, has to be valid UTF-8; all other
files are of no account.
-/
namespace ScriptAtlas

def IndexOptions.isScript (options : IndexOptions) (fileName : Text) : Bool :=
  (Path.extension? fileName).any (Text.sameAscii options.extension)

/-- The name at the end of a path. -/
def Path.fileName (p : Path) : Text :=
  match p.components.getLast? with
  | some (.name s) => s
  | _ => []

/-- The text of a script. -/
def scriptText (file : Path) (bytes : List UInt8) : Except Error (Path × Text) :=
  match Text.ofBytes bytes with
  | some text => .ok (file, text)
  | none => .error (.unreadable file)

/-- The files that are visited from a place, whose path is given. -/
def visited (s : FileTree.Spot) (path : Path) : List (Path × List UInt8) :=
  s.here.walk (FileTree.scopesAbove [] s.above) path

/-- The index of the scripts at and below a place. -/
def SymbolIndex.ofSpot (options : IndexOptions) (s : FileTree.Spot) (path : Path) :
    Except Error SymbolIndex := do
  let scripts ← ((visited s path).filter (options.isScript ·.1.fileName)).mapM fun (file, bytes) =>
    scriptText file bytes
  return .build options.parse scripts

/-- The index of the scripts in the folder to which a way leads from the top of
    a tree, whose path is given. -/
def SymbolIndex.ofFolder (options : IndexOptions) (t : FileTree) (top : Path) (way : Option Text) :
    Except Error SymbolIndex :=
  match way with
  | none => SymbolIndex.ofSpot options ⟨t, []⟩ top
  | some way =>
    let path := top.child way
    match t.find way with
    | .ok s => SymbolIndex.ofSpot options s path
    | .error .missing => .error (.missing path)
    | .error .notFolder => .error (.notFolder path)

end ScriptAtlas
