import ScriptAtlas.Directory.FileTree
import ScriptAtlas.Directory.Rule
import ScriptAtlas.Path.Basic
import ScriptAtlas.Text.Utf8

/-!
Walking through a folder. Entries that the ignore files of the folders around
them leave out are not visited, and nothing below them is. The nearest folder
whose rules say anything about an entry decides. Rules for a repository count
only inside one, and only those of the repository itself. Where no rule says
anything, entries whose name begins with a dot are left out.
-/
namespace ScriptAtlas

/-- What a folder on the way says about the entries below it. -/
structure Scope where
  /-- The rules that always count. -/
  rules : List IgnoreRule
  /-- The rules that count inside a repository. -/
  repositoryRules : List IgnoreRule
  /-- Whether the folder holds a repository. -/
  isRepository : Bool
  /-- The names that lead from the folder to the one that is being walked. -/
  way : List Text
deriving Repr

namespace Scope

/-- The rules in an entry of a folder. -/
def rulesIn (folder : FileTree) (name : Text) : List IgnoreRule :=
  match folder.entry? name with
  | some (.file bytes) => IgnoreRule.ofLines (Text.linesOfBytes bytes)
  | _ => []

/-- The scope of a folder from which a way leads on. -/
def ofFolder (folder : FileTree) (way : List Text) : Scope :=
  ⟨rulesIn folder ".ignore".toList, rulesIn folder ".gitignore".toList,
    (folder.entry? ".git".toList).isSome, way⟩

/-- The scope after one more step of the way. -/
def enter (name : Text) (s : Scope) : Scope := { s with way := s.way ++ [name] }

/-- The scopes up to the nearest repository, if there is one. -/
def ofRepository : List Scope → List Scope
  | [] => []
  | s :: rest => if s.isRepository then [s] else s :: ofRepository rest

/-- Whether an entry is kept, as far as the rules of the scopes say. -/
def verdict? (scopes : List Scope) (name : Text) (isFolder : Bool) : Option Bool :=
  let inRepository := if scopes.any (·.isRepository) then ofRepository scopes else []
  (scopes.findSome? fun s => IgnoreRule.verdict? s.rules (s.way ++ [name]) isFolder).or
    (inRepository.findSome? fun s =>
      IgnoreRule.verdict? s.repositoryRules (s.way ++ [name]) isFolder)

def visits (scopes : List Scope) (name : Text) (isFolder : Bool) : Bool :=
  (verdict? scopes name isFolder).getD (name.head? != some '.')

end Scope

namespace FileTree

mutual

/-- The files that are visited at and below a place, with their paths. -/
def walk (scopes : List Scope) (path : Path) : FileTree → List (Path × List UInt8)
  | file bytes => [(path, bytes)]
  | folder es => walkEntries (Scope.ofFolder (folder es) [] :: scopes) path es

def walkEntries (scopes : List Scope) (path : Path) :
    List (Text × FileTree) → List (Path × List UInt8)
  | [] => []
  | (name, t) :: rest =>
    (if Scope.visits scopes name t.isFolder then
      walk (scopes.map (Scope.enter name)) (path.child name) t
    else []) ++ walkEntries scopes path rest

end

/-- The scopes of the folders above a place, the nearest first, where `way`
    leads on from there. -/
def scopesAbove : List Text → List (FileTree × Text) → List Scope
  | _, [] => []
  | way, (parent, name) :: above =>
    Scope.ofFolder parent (name :: way) :: scopesAbove (name :: way) above

end FileTree
end ScriptAtlas
