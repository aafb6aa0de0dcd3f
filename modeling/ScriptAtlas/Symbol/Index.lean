import ScriptAtlas.Path.Map
import ScriptAtlas.Symbol.Basic

/-!
The symbols of many scripts by file. A name is completed from the symbols of
all files: those whose name begins with the given text in lower case, ordered
by name, then file, then line, and only the first of each kind and name.
-/
namespace ScriptAtlas

/-- The symbols of each file. -/
structure SymbolIndex where
  files : PathMap (List Symbol) := {}
deriving Repr

/-- A symbol with the file that declares it. -/
structure Match where
  file : Path
  symbol : Symbol
deriving DecidableEq, Repr

namespace SymbolIndex

def updateTree (x : SymbolIndex) (file : Path) (t : Tree) : SymbolIndex :=
  ⟨x.files.insert file t.symbols⟩

def update (options : ParseOptions) (x : SymbolIndex) (file : Path) (text : Text) : SymbolIndex :=
  x.updateTree file (parse options text)

def remove (x : SymbolIndex) (file : Path) : SymbolIndex := ⟨x.files.erase file⟩

/-- The index without a file, and whether it had the file. -/
def discard (x : SymbolIndex) (file : Path) : SymbolIndex × Bool :=
  (x.remove file, x.files.contains file)

/-- The index of a list of scripts; a later script replaces an earlier one of
    the same file. -/
def build (options : ParseOptions) (scripts : List (Path × Text)) : SymbolIndex :=
  scripts.foldl (fun x (file, text) => x.update options file text) {}

def symbolsOf (x : SymbolIndex) (file : Path) : List Symbol := (x.files.get? file).getD []

def size (x : SymbolIndex) : Nat :=
  x.files.entries.foldr (fun e count => e.2.length + count) 0

/-- Whether two indexes have the same symbols for the same files. -/
def same (x y : SymbolIndex) : Bool := x.files.same y.files

/-- All symbols with their files, file by file. -/
def declarations (x : SymbolIndex) : List Match :=
  x.files.entries.flatMap fun (file, symbols) => symbols.map (⟨file, ·⟩)

end SymbolIndex

namespace Match

/-- The place of a match among the completions: by name, then file, then line. -/
def order (m n : Match) : Ordering :=
  (compare (m.symbol.name.map Char.toNat) (n.symbol.name.map Char.toNat)).then
    ((m.file.order n.file).then (compare m.symbol.line n.symbol.line))

/-- Whether two matches report the same kind and name. -/
def sameName (m n : Match) : Bool := m.symbol.kind = n.symbol.kind && m.symbol.name = n.symbol.name

/-- The first match of each kind and name. -/
def firsts : List Match → List Match
  | [] => []
  | m :: rest => m :: (firsts rest).filter (!m.sameName ·)

end Match

namespace SymbolIndex

/-- Whether a name begins with a text, in lower case. -/
def completes (start name : Text) : Bool :=
  (Text.lowercase start).isPrefixOf (Text.lowercase name)

/-- The completions of a text. -/
def complete (x : SymbolIndex) (start : Text) : List Match :=
  Match.firsts ((x.declarations.filter (completes start ·.symbol.name)).mergeSort
    fun m n => (m.order n).isLE)

end SymbolIndex
end ScriptAtlas
