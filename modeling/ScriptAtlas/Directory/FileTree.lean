import ScriptAtlas.Text.Cut

/-!
A tree of files and folders, and the way to a place in it. A way is spelled
with slashes; a dot stays where it is and two dots lead back to the folder
above. Only folders can be walked through.
-/
namespace ScriptAtlas

/-- A file with its bytes, or a folder with its entries by name. -/
inductive FileTree
  | file (bytes : List UInt8)
  | folder (entries : List (Text × FileTree))
deriving Repr

namespace FileTree

def isFolder : FileTree → Bool
  | file _ => false
  | folder _ => true

def entries : FileTree → List (Text × FileTree)
  | file _ => []
  | folder es => es

def entry? (t : FileTree) (name : Text) : Option FileTree := t.entries.lookup name

/-- Replaces the entry with a name, or adds one at the end. -/
def alter (name : Text) (change : Option FileTree → FileTree) :
    List (Text × FileTree) → List (Text × FileTree)
  | [] => [(name, change none)]
  | (m, t) :: rest =>
    if m = name then (m, change (some t)) :: rest else (m, t) :: alter name change rest

/-- Puts a tree at the end of a list of names, with folders on the way to it.
    An empty folder changes nothing that is already there. -/
def place (leaf : FileTree) : List Text → FileTree → FileTree
  | [], old =>
    match leaf with
    | folder [] => old
    | leaf => leaf
  | _ :: _, file bytes => file bytes
  | name :: rest, folder es =>
    folder (alter name (fun t => place leaf rest (t.getD (folder []))) es)

/-- The places through which a way leads from a place on, each given by the
    names that lead to it from the top. -/
def placesAlong (spot : List Text) : List Text → List (List Text)
  | [] => []
  | part :: rest =>
    let next :=
      if part.isEmpty || part = ['.'] then spot
      else if part = ['.', '.'] then spot.dropLast
      else spot ++ [part]
    next :: placesAlong next rest

/-- Puts a tree where a way leads from the top, with folders at all the places
    through which it leads. -/
def put (leaf : FileTree) (way : Text) (t : FileTree) : FileTree :=
  let places := placesAlong [] (Text.pieces '/' way)
  place leaf (places.getLast?.getD []) (places.dropLast.foldl (fun t p => place (folder []) p t) t)

/-- Why a way leads nowhere. -/
inductive Obstacle
  | missing
  | notFolder
deriving DecidableEq, Repr

/-- A place in a tree: what is there, and the folders above it with the names
    by which they are left, the nearest first. -/
structure Spot where
  here : FileTree
  above : List (FileTree × Text)

/-- The place after one more part of a way. -/
def Spot.step (s : Spot) (part : Text) : Except Obstacle Spot :=
  if !s.here.isFolder then .error .notFolder
  else if part.isEmpty || part = ['.'] then .ok s
  else if part = ['.', '.'] then
    match s.above with
    | [] => .error .missing
    | (parent, _) :: above => .ok ⟨parent, above⟩
  else
    match s.here.entry? part with
    | some t => .ok ⟨t, (s.here, part) :: s.above⟩
    | none => .error .missing

/-- The place to which a way leads. -/
def find (t : FileTree) (way : Text) : Except Obstacle Spot :=
  (Text.pieces '/' way).foldlM Spot.step ⟨t, []⟩

end FileTree
end ScriptAtlas
