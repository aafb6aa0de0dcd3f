import ScriptAtlas.Directory.Glob
import ScriptAtlas.Text.Blank
import ScriptAtlas.Text.Cut

/-!
Rules that leave files out. Each line of an ignore file is a rule unless it is
blank or a comment. A rule with a slash at its beginning or inside is about the
way from the folder of the ignore file, any other rule about a name at any
depth; a star stands for any part of a name, and two stars instead of a name
for any number of folders. A rule that begins with an exclamation mark keeps
what an earlier rule leaves out, and one that ends in a slash is about folders
only. The last rule that applies decides.
-/
namespace ScriptAtlas

/-- A line of an ignore file. -/
structure IgnoreRule where
  /-- Whether the rule keeps files instead of leaving them out. -/
  keeps : Bool
  foldersOnly : Bool
  /-- The pattern of the names that lead to an entry. -/
  way : Glob (Glob Char)
deriving DecidableEq, Repr

namespace IgnoreRule

def namePattern (piece : Text) : Glob Char :=
  piece.map fun c => if c = '*' then .gap else .item c

/-- The part of a way between two slashes. -/
def partOf (piece : Text) : Glob.Part (Glob Char) :=
  if piece = ['*', '*'] then .gap else .item (namePattern piece)

/-- The parts of a way. An empty name at its end counts only behind another name. -/
def partsOf (text : Text) : Glob (Glob Char) :=
  let parts := (Text.pieces '/' text).map partOf
  if parts.getLast? = some (.item []) && parts.dropLast.all (· = .gap) then parts.dropLast
  else parts

/-- The pattern of a way, which leads from anywhere unless it is anchored. A gap
    at its end stands for at least one name. -/
def wayPattern (anchored : Bool) (text : Text) : Glob (Glob Char) :=
  let way := if anchored then partsOf text else .gap :: partsOf text
  if way.getLast? = some .gap then way ++ [.item [.gap]] else way

def ofLine? (line : Text) : Option IgnoreRule :=
  if line.head? = some '#' || (Text.trimEnd line).isEmpty then none
  else
    let line := Text.trimEnd line
    let keeps := line.head? = some '!'
    let line := if keeps then line.drop 1 else line
    let rooted := line.head? = some '/'
    let line := if rooted then line.drop 1 else line
    let foldersOnly := line.getLast? = some '/'
    let line := Text.dropFinal '/' line
    some ⟨keeps, foldersOnly, wayPattern (rooted || line.contains '/') line⟩

def fitsName (pattern : Glob Char) (name : Text) : Bool :=
  Glob.fits (fun c d => c == d) pattern name

def applies (r : IgnoreRule) (way : List Text) (isFolder : Bool) : Bool :=
  (isFolder || !r.foldersOnly) && Glob.fits fitsName r.way way

/-- The rules in the lines of an ignore file. Byte order marks at its beginning
    belong to no rule. -/
def ofLines : List Text → List IgnoreRule
  | [] => []
  | first :: rest => (first.dropWhile (· == '\uFEFF') :: rest).filterMap ofLine?

/-- What the last rule that applies says: whether the entry is kept. -/
def verdict? (rules : List IgnoreRule) (way : List Text) (isFolder : Bool) : Option Bool :=
  (rules.reverse.find? (·.applies way isFolder)).map (·.keeps)

end IgnoreRule
end ScriptAtlas
