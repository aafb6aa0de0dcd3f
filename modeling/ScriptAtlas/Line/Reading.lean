import ScriptAtlas.Options
import ScriptAtlas.Line.Call
import ScriptAtlas.Line.Comment
import ScriptAtlas.Line.Keyword

/-!
Reading one line of a script. A line is read without its tabs and carriage
returns and without blank characters at its ends. What it is depends on this
content, on the kind of the line it belongs to and on the options: an entry of
an options block comes first, then the keywords, then the shape of a call, then
the head of an options block. Any other line is a statement unless it is empty.
-/
namespace ScriptAtlas

/-- The content of a line: no tabs or carriage returns, no blank ends. -/
def contentOf (raw : Text) : Text := Text.trim (Text.without ['\r', '\t'] raw)

/-- A line has no content exactly if it is blank. -/
theorem isEmpty_contentOf (raw : Text) : (contentOf raw).isEmpty = Text.allBlank raw := by
  have kept : Text.allBlank (Text.without ['\r', '\t'] raw) = Text.allBlank raw := by
    rw [Text.allBlank, Text.without, List.all_filter, Text.allBlank]
    congr 1
    funext c
    by_cases removed : c = '\r' ∨ c = '\t'
    · rcases removed with rfl | rfl <;> simp [Text.isBlank_return, Text.isBlank_tab]
    · simp [not_or.mp removed]
  rw [contentOf, Bool.eq_iff_iff, List.isEmpty_iff, Text.trim_eq_nil_iff, kept]

/-- Content is its own content: what is removed from a line is not in it any more. -/
theorem contentOf_contentOf (raw : Text) : contentOf (contentOf raw) = contentOf raw := by
  have kept : Text.without ['\r', '\t'] (contentOf raw) = contentOf raw := by
    rw [Text.without, List.filter_eq_self]
    intro c member
    have inside : c ∈ Text.without ['\r', '\t'] raw := Text.mem_of_mem_trim member
    exact (List.mem_filter.mp inside).2
  calc contentOf (contentOf raw) = Text.trim (contentOf raw) := by rw [contentOf, kept]
    _ = contentOf raw := Text.trim_trim _

/-- How the head of an options block begins, in lower case. -/
def optionsHead : Text := "options:".toList

/-- What a line that opens with no keyword is, where `nested` tells whether it
    belongs directly to an options block. -/
def Construct.ofPlain (nested : Bool) (content lower : Text) : Construct :=
  if Call.hasShape content then .functionCall (Call.name content)
  else if !nested && optionsHead.isPrefixOf lower then .options
  else if content.isEmpty then .undefined
  else .statement

/-- What a line with a given content is. -/
def Construct.ofContent (options : ParseOptions) (parent : Option Kind) (content : Text) :
    Construct :=
  if parent = some .options ∧ options.classifyOptions then .option
  else match Keyword.ofLower? (Text.lowercase content) with
    | some k => k.construct content
    | none => .ofPlain (parent = some .options) content (Text.lowercase content)

/-- A line that has been read. -/
structure Line where
  content : Text
  construct : Construct
  /-- The trailing comment with its `#`. A line that is all comment has none. -/
  comment : Option Text
deriving DecidableEq, Repr

def Line.kind (line : Line) : Kind := line.construct.kind

/-- Reads a line with a given content. -/
def Line.ofContent (options : ParseOptions) (parent : Option Kind) (content : Text) : Line :=
  let construct := Construct.ofContent options parent content
  ⟨content, construct, if construct.kind = .comment then none else Comment.ofLine content⟩

/-- Reads a line that belongs to a line of the kind `parent`. -/
def Line.read (options : ParseOptions) (parent : Option Kind) (raw : Text) : Line :=
  .ofContent options parent (contentOf raw)

end ScriptAtlas
