import ScriptAtlas.Proofs.Line.Classification
import ScriptAtlas.Proofs.Line.CommentStart
import ScriptAtlas.Proofs.Script.LineByLine

/-!
Scripts that differ in the case of ASCII letters. Blank characters, indentation, the
marks of calls and comments and the ends of lines are no letters, and keywords are
found in letters of either case. So the case of the letters of a line matters neither
for its depth nor for its kind nor for where its comment starts (`depthOf_caseless`,
`Line.read_caseless`), and no line needs to know more of the lines before it
(`parse_caseless`, `parse_sameAscii`).
-/
namespace ScriptAtlas

/-! ### Texts without letter case -/

namespace Text

/-- The text with its ASCII letters in lower case. -/
def caseless (s : Text) : Text := s.map Char.toLower

theorem caseless_caseless (s : Text) : caseless (caseless s) = caseless s := by
  rw [caseless, caseless, List.map_map]
  exact congrArg (s.map ·) (funext toLower_toLower)

theorem length_caseless (s : Text) : (caseless s).length = s.length := List.length_map _

section
variable {p : Char → Bool} (either : ∀ c, p c.toLower = p c)
include either

theorem filter_caseless (s : Text) : (caseless s).filter p = caseless (s.filter p) := by
  have same : p ∘ Char.toLower = p := funext either
  rw [caseless, List.filter_map, same, caseless]

theorem takeWhile_caseless (s : Text) : (caseless s).takeWhile p = caseless (s.takeWhile p) := by
  have same : p ∘ Char.toLower = p := funext either
  rw [caseless, List.takeWhile_map, same, caseless]

theorem dropWhile_caseless (s : Text) : (caseless s).dropWhile p = caseless (s.dropWhile p) := by
  have same : p ∘ Char.toLower = p := funext either
  rw [caseless, List.dropWhile_map, same, caseless]

theorem all_caseless (s : Text) : (caseless s).all p = s.all p := by
  have same : p ∘ Char.toLower = p := funext either
  rw [caseless, List.all_map, same]

end

/-- Marks are taken out in the same places. -/
theorem without_caseless {cs : List Char} (marks : ∀ c ∈ cs, c.isAlpha = false) (s : Text) :
    without cs (caseless s) = caseless (without cs s) := by
  refine filter_caseless (fun c => ?_) s
  have same : c.toLower ∈ cs ↔ c ∈ cs := by
    constructor
    · intro inside
      rwa [← (toLower_eq_iff (marks _ inside)).mp rfl] at inside
    · intro inside
      rwa [(toLower_eq_iff (marks c inside)).mpr rfl]
  simp [same]

theorem isBlank_toLower (c : Char) : isBlank c.toLower = isBlank c := apply_toLower (by decide) c

theorem trim_caseless (s : Text) : trim (caseless s) = caseless (trim s) := by
  have backwards : ∀ s : Text, (caseless s).reverse = caseless s.reverse := fun s => List.map_reverse.symm
  rw [trim, trimStart, dropWhile_caseless isBlank_toLower, trimEnd, backwards, dropWhile_caseless isBlank_toLower,
    backwards, trim, trimEnd, trimStart]

end Text

open Text (caseless)

/-! ### Lines without letter case -/

theorem contentOf_caseless (raw : Text) : contentOf (caseless raw) = caseless (contentOf raw) := by
  have marks : ∀ c ∈ ['\r', '\t'], c.isAlpha = false := by simp
  rw [contentOf, Text.without_caseless marks, Text.trim_caseless, contentOf]

theorem readable_caseless (number : Nat) (raw : Text) : readable number (caseless raw) = caseless (readable number raw) := by
  rw [readable, readable]
  split
  · exact Text.dropWhile_caseless (fun _ => Text.toLower_beq (by decide)) raw
  · rfl

/-- Indentation has no letters. -/
theorem depthOf_caseless (tabWidth : Nat) (line : Text) : depthOf tabWidth (caseless line) = depthOf tabWidth line := by
  have either : ∀ c : Char, indents c.toLower = indents c := by
    intro c
    simp [indents, Text.toLower_beq]
  have lead : caseless (line.takeWhile indents) = line.takeWhile indents := by
    refine (List.map_congr_left fun c member => ?_).trans (List.map_id _)
    have indent := List.all_eq_true.mp List.all_takeWhile c member
    rcases indents_iff.mp indent with rfl | rfl <;> rfl
  rw [depthOf, Text.takeWhile_caseless either, lead, depthOf]

theorem isBlankLine_caseless (line : Text) : isBlankLine (caseless line) = isBlankLine line := by
  rw [isBlankLine_eq, isBlankLine_eq, Text.allBlank, Text.all_caseless Text.isBlank_toLower, Text.allBlank]

namespace Comment

theorem splitFrom_caseless (inQuotes : Bool) (s : Text) :
    splitFrom inQuotes (caseless s) =
      (caseless (splitFrom inQuotes s).1, (splitFrom inQuotes s).2.map caseless) := by
  induction s generalizing inQuotes with
  | nil => rfl
  | cons c s ih =>
    have hash : c.toLower = '#' ↔ c = '#' := Text.toLower_eq_iff (by decide)
    have quote : (c.toLower == '"') = (c == '"') := Text.toLower_beq (by decide)
    rw [caseless] at ih
    rw [caseless, List.map_cons, splitFrom, splitFrom, quote, ih]
    simp only [hash]
    split <;> rfl

/-- A comment starts at the same place in letters of either case. -/
theorem ofLine_caseless (s : Text) : ofLine (caseless s) = (ofLine s).map caseless := by
  rw [ofLine, splitFrom_caseless, ofLine]

end Comment

namespace Call

/-- A line ends in a closing parenthesis in letters of either case. -/
theorem closing_caseless (s : Text) : ((caseless s).getLast? == some ')') = (s.getLast? == some ')') := by
  rw [caseless, List.getLast?_map]
  cases s.getLast? with
  | none => rfl
  | some c => exact Text.toLower_beq (d := ')') (by decide)

theorem closes_caseless (s : Text) : closes (caseless s) = closes s := by
  have either : ∀ c : Char, (!endsLine c.toLower) = !endsLine c := by
    intro c
    simp [endsLine, Text.toLower_beq]
  have inner : (caseless s).dropLast = caseless s.dropLast := List.map_dropLast.symm
  rw [closes, closing_caseless, inner, Text.all_caseless either, closes]

theorem completes_caseless (started : Bool) (s : Text) : completes started (caseless s) = completes started s := by
  induction s generalizing started with
  | nil => rfl
  | cons c s ih =>
    have space : isSpace c.toLower = isSpace c := by simp [isSpace, Text.toLower_beq]
    have opening : (c.toLower == '(') = (c == '(') := Text.toLower_beq (by decide)
    have rest := closes_caseless s
    rw [caseless] at ih rest
    rw [caseless, List.map_cons, completes, completes, space, opening, rest, ih]

theorem hasShape_caseless (s : Text) : hasShape (caseless s) = hasShape s := by
  rw [hasShape, closing_caseless, completes_caseless, hasShape]

end Call

/-- A line opens with the same keyword in letters of either case. -/
theorem Keyword.ofLower?_lowercase_caseless (content : Text) :
    ofLower? (Text.lowercase (caseless content)) = ofLower? (Text.lowercase content) := by
  have same : ∀ k : Keyword, k.opens (Text.lowercase (caseless content)) = k.opens (Text.lowercase content) := by
    intro k
    rw [Bool.eq_iff_iff, opens, opens, List.any_eq_true, List.any_eq_true]
    refine exists_congr fun word => and_congr_right fun spelling => ?_
    rw [caseless, Text.isPrefixOf_lowercase_toLower (isAsciiWord_of_mem_spellings k word spelling)]
  simp only [ofLower?, same]

/-- The kind of a line does not depend on the case of its ASCII letters. -/
theorem Construct.kind_ofContent_caseless (options : ParseOptions) (parent : Option Kind) (content : Text) :
    (ofContent options parent (caseless content)).kind = (ofContent options parent content).kind := by
  have word : Text.isAsciiWord optionsHead = true := by decide
  have head : optionsHead.isPrefixOf (Text.lowercase (caseless content)) = optionsHead.isPrefixOf (Text.lowercase content) :=
    Text.isPrefixOf_lowercase_toLower word content
  have empty : (caseless content).isEmpty = content.isEmpty := List.isEmpty_map
  rw [ofContent, ofContent, Keyword.ofLower?_lowercase_caseless]
  split
  · rfl
  · cases Keyword.ofLower? (Text.lowercase content) with
    | some k => rw [k.kind_construct, k.kind_construct]
    | none =>
      simp only [ofPlain, Call.hasShape_caseless, head, empty]
      split
      · rfl
      · rfl

/-- A construct of a kind, without any parts. -/
def Construct.ofKind : Kind → Construct
  | .undefined => .undefined
  | .option => .option
  | .options => .options
  | .functionCall => .functionCall []
  | .function => .function none
  | .command => .command []
  | .comment => .comment
  | .event => .event []
  | .ifStatement => .ifStatement
  | .elseStatement => .elseStatement
  | .loop => .loop
  | .trigger => .trigger
  | .class => .class []
  | .stop => .stop
  | .setVar => .setVar none
  | .statement => .statement

theorem Construct.kind_ofKind (k : Kind) : (ofKind k).kind = k := by cases k <;> rfl

/-- The kind of a line, with its content and its comment in lower case. -/
def Line.caseless (line : Line) : Line :=
  ⟨Text.caseless line.content, .ofKind line.kind, line.comment.map Text.caseless⟩

theorem Line.read_caseless (options : ParseOptions) (parent : Option Kind) (raw : Text) :
    (Line.read options parent (Text.caseless raw)).caseless = (Line.read options parent raw).caseless := by
  have kind := Construct.kind_ofContent_caseless options parent (contentOf raw)
  have twice : ∀ comment : Option Text, (comment.map Text.caseless).map Text.caseless = comment.map Text.caseless := by
    intro comment
    rw [Option.map_map]
    exact congrArg (comment.map ·) (funext Text.caseless_caseless)
  rw [Line.read, Line.read, contentOf_caseless, Line.ofContent, Line.ofContent, caseless, caseless, Line.kind, Line.kind,
    kind, Text.caseless_caseless, Comment.ofLine_caseless]
  split
  · rfl
  · rw [twice]

/-! ### Trees without letter case -/

/-- The node with the kind of its line and the texts in lower case. -/
def Node.caseless (n : Node) : Node := { n with toLine := n.toLine.caseless, raw := Text.caseless n.raw }

theorem Node.isView_caseless : IsView caseless where
  parent _ := rfl
  addChild _ _ := rfl
  depth _ := rfl
  kind n := Construct.kind_ofKind n.kind
  isBlank _ := List.isEmpty_map

theorem Placing.node_caseless (options : ParseOptions) (s : Placing) (id : Nat) (raw : Text) :
    (s.node options id (caseless raw)).caseless = (s.node options id raw).caseless := by
  have read := Line.read_caseless options
    ((s.parentOf (depthOf options.tabWidth (readable (id + 1) raw)) (isBlankLine (readable (id + 1) raw))).map (·.kind))
    (readable (id + 1) raw)
  simp only [Node.caseless, node, readable_caseless, depthOf_caseless, isBlankLine_caseless, read, Text.caseless_caseless]

theorem sourceLines_caseless (text : Text) : sourceLines (caseless text) = (sourceLines text).map caseless := by
  have unbroken' : ∀ line : Text, '\n' ∉ line → '\n' ∉ caseless line := by
    intro line unbroken member
    obtain ⟨c, inside, same⟩ := List.mem_map.mp member
    exact unbroken (Text.eq_of_toLower_eq (by decide) same ▸ inside)
  induction text using lines_induction with
  | none => rfl
  | last line filled unbroken =>
    have filled' : caseless line ≠ [] := List.map_eq_nil_iff.not.mpr filled
    rw [sourceLines_of_unbroken filled unbroken, sourceLines_of_unbroken filled' (unbroken' line unbroken)]
    rfl
  | next line rest unbroken ih =>
    have seam : caseless (line ++ '\n' :: rest) = caseless line ++ '\n' :: caseless rest := List.map_append
    rw [seam, sourceLines_append_break (unbroken' line unbroken), ih, sourceLines_append_break unbroken, List.map_cons]

/-- Texts that differ in the case of ASCII letters have trees that differ in no more. -/
theorem parse_caseless (options : ParseOptions) {text text' : Text} (same : caseless text = caseless text') :
    (parse options text).mapNodes Node.caseless = (parse options text').mapNodes Node.caseless := by
  have tells : ∀ (s : Placing) (id : Nat) (raw raw' : Text), caseless raw = caseless raw' →
      (s.node options id raw).caseless = (s.node options id raw').caseless := by
    intro s id raw raw' alike
    rw [← s.node_caseless options id raw, alike, s.node_caseless]
  have listed : ∀ text, (sourceLines text).mapIdx (fun _ raw => caseless raw) = sourceLines (caseless text) := by
    intro text
    rw [sourceLines_caseless]
    refine List.ext_getElem? fun i => ?_
    rw [List.getElem?_mapIdx, List.getElem?_map]
  have lines : (sourceLines text).mapIdx (fun _ raw => caseless raw) =
      (sourceLines text').mapIdx fun _ raw => caseless raw := by
    rw [listed, listed, same]
  exact mapNodes_parse_congr Node.isView_caseless tells lines

/-- The comment of a line is what follows from some place in its content. -/
theorem suffix_of_comment {options : ParseOptions} {text : Text} {id : Nat} {n : Node} {comment : Text}
    (found : (parse options text).get? id = some n) (commented : n.comment = some comment) : comment <:+ n.content := by
  obtain ⟨raw, -, -, -, read⟩ := parse_line found
  have content : n.content = contentOf (readable (id + 1) raw) := congrArg Line.content read
  have comments := congrArg Line.comment read
  rw [commented, Line.read, ← content, Line.ofContent] at comments
  by_cases whole : (Construct.ofContent options ((parse options text).parentKind n) n.content).kind = .comment
  · rw [if_pos whole] at comments
    cases comments
  · rw [if_neg whole] at comments
    exact Comment.suffix_of_ofLine comments.symm

/-- Comments that differ in the case of letters start at the same character. -/
theorem exists_start {s s' : Text} {comment comment' : Option Text} (inside : ∀ c, comment = some c → c <:+ s)
    (inside' : ∀ c, comment' = some c → c <:+ s') (long : s.length = s'.length)
    (same : comment.map caseless = comment'.map caseless) :
    ∃ start : Option Nat, comment = start.map (s.drop ·) ∧ comment' = start.map (s'.drop ·) := by
  cases comment with
  | none => exact ⟨none, rfl, Option.map_eq_none_iff.mp same.symm⟩
  | some c =>
    obtain ⟨c', rfl, alike⟩ := Option.map_eq_some_iff.mp same.symm
    have length : c'.length = c.length := by
      rw [← Text.length_caseless, alike, Text.length_caseless]
    have place := List.suffix_iff_eq_drop.mp (inside c rfl)
    have place' := List.suffix_iff_eq_drop.mp (inside' c' rfl)
    rw [length, ← long] at place'
    exact ⟨some (s.length - c.length), congrArg some place, congrArg some place'⟩

/-- Scripts that differ in the case of ASCII letters have lines of the same depth and
    kind, with the same links between them, and comments that start at the same
    characters of their contents. -/
theorem parse_sameAscii (options : ParseOptions) {text text' : Text} (same : Text.sameAscii text text' = true) :
    (parse options text).roots = (parse options text').roots ∧
    (parse options text).size = (parse options text').size ∧
    ∀ id n m, (parse options text).get? id = some n → (parse options text').get? id = some m →
      n.depth = m.depth ∧ n.parent = m.parent ∧ n.children = m.children ∧ n.kind = m.kind ∧
      Text.sameAscii n.content m.content = true ∧
      ∃ start : Option Nat, n.comment = start.map (n.content.drop ·) ∧ m.comment = start.map (m.content.drop ·) := by
  have trees := parse_caseless options (beq_iff_eq.mp same)
  refine ⟨congrArg (·.roots) trees, ?_, fun id n m found found' => ?_⟩
  · rw [← Tree.size_mapNodes Node.caseless, trees, Tree.size_mapNodes]
  have nodes := congrArg (·.get? id) trees
  simp only [Tree.get?_mapNodes, found, found', Option.map_some, Option.some.injEq] at nodes
  have depth := congrArg Node.depth nodes
  have parent := congrArg Node.parent nodes
  have children := congrArg Node.children nodes
  have kind := congrArg Node.kind nodes
  rw [Node.isView_caseless.kind, Node.isView_caseless.kind] at kind
  have content : caseless n.content = caseless m.content := congrArg (fun k : Node => k.content) nodes
  have comment : n.comment.map caseless = m.comment.map caseless := congrArg (fun k : Node => k.comment) nodes
  have long : n.content.length = m.content.length := by
    rw [← Text.length_caseless, content, Text.length_caseless]
  refine ⟨depth, parent, children, kind, beq_iff_eq.mpr content, ?_⟩
  exact exists_start (fun _ => suffix_of_comment found) (fun _ => suffix_of_comment found') long comment

/-- An options block, a comment with a number sign in quotes before it and a Kelvin sign
    that no keyword is spelled with, in letters of both cases. -/
theorem parse_sameAscii_kelvin :
    ∃ (text text' : Text) (n m : Node), Text.sameAscii text text' = true ∧
      (parse {} text).get? 1 = some n ∧ (parse {} text').get? 1 = some m ∧ n.kind = .setVar ∧ m.kind = .setVar ∧
      n.parent = some 0 ∧ m.parent = some 0 ∧ n.comment = some "# NOT \u212A".toList ∧
      m.comment = some "# not \u212A".toList ∧
      ∃ start : Option Nat, n.comment = start.map (n.content.drop ·) ∧ m.comment = start.map (m.content.drop ·) := by
  let text := "OptIonS:\n  SET \x7bK\x7d TO \"#\" # NOT \u212A".toList
  let text' := "options:\n  set \x7bk\x7d to \"#\" # not \u212A".toList
  have same : Text.sameAscii text text' = true := by decide
  obtain ⟨-, -, nodes⟩ := parse_sameAscii {} same
  have found : ∃ n, (parse {} text).get? 1 = some n ∧ n.kind = .setVar ∧ n.parent = some 0 ∧
      n.comment = some "# NOT \u212A".toList := ⟨_, rfl, by decide +kernel, rfl, by decide +kernel⟩
  have found' : ∃ m, (parse {} text').get? 1 = some m ∧ m.comment = some "# not \u212A".toList :=
    ⟨_, rfl, by decide +kernel⟩
  obtain ⟨n, found, set, up, commented⟩ := found
  obtain ⟨m, found', commented'⟩ := found'
  obtain ⟨-, parent, -, kind, -, start⟩ := nodes 1 n m found found'
  exact ⟨text, text', n, m, same, found, found', set, kind ▸ set, up, parent ▸ up, commented, commented', start⟩

end ScriptAtlas
