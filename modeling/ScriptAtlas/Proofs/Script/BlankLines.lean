import ScriptAtlas.Proofs.Script.Ancestry
import ScriptAtlas.Proofs.Script.LineByLine

/-!
Scripts without their blank lines. A blank line leaves the placing of the lines after
it as it is, so the lines with content are placed in the same way whether it is there
or not, only at other positions (`Placing.nodes_filter`). The node of a line with
content is then found at the place that it has among the nodes with content
(`parse_withoutBlankLines`).
-/
namespace ScriptAtlas

/-- The text without its blank lines and the line breaks that end them. -/
def withoutBlankLines (text : Text) : Text := ((wholeLines text).filter (!Text.allBlank ·)).flatten

theorem allBlank_concat_break (line : Text) : Text.allBlank (line ++ ['\n']) = Text.allBlank line := by
  have break_blank : Text.allBlank ['\n'] = true := by decide
  rw [Text.allBlank] at break_blank
  rw [Text.allBlank, List.all_append, break_blank, Bool.and_true, Text.allBlank]

/-- What is left has the lines with content and no others. -/
theorem sourceLines_withoutBlankLines (text : Text) :
    sourceLines (withoutBlankLines text) = (sourceLines text).filter (!Text.allBlank ·) := by
  induction text using lines_induction with
  | none => rfl
  | last line filled unbroken =>
    rw [withoutBlankLines, wholeLines_of_unbroken filled unbroken, sourceLines_of_unbroken filled unbroken]
    cases blank : Text.allBlank line with
    | true => simp [blank, sourceLines_nil]
    | false => simp [blank, sourceLines_of_unbroken filled unbroken]
  | next line rest unbroken ih =>
    rw [withoutBlankLines] at ih
    rw [withoutBlankLines, wholeLines_append_break unbroken, sourceLines_append_break unbroken, List.filter_cons,
      List.filter_cons, allBlank_concat_break]
    cases blank : Text.allBlank line with
    | true => simp [ih]
    | false => simp [sourceLines_append_break unbroken, ih]

/-! ### Other positions -/

/-- The block of a line at another position. -/
def Block.moved (place : Nat → Nat) (b : Block) : Block := { b with id := place b.id }

/-- The node of a line at another position, with its parent at another position. -/
def Node.moved (place : Nat → Nat) (n : Node) : Node :=
  { n with
    number := place (n.number - 1) + 1
    parent := n.parent.map place }

namespace Placing

variable {options : ParseOptions} {place : Nat → Nat} {s : Placing} {id position : Nat} {raw : Text}

/-- A line becomes the same node at another position if the open blocks have moved
    in the same way. -/
theorem node_moved (unmarked : ∀ number, readable number raw = raw) (own : place id = position) :
    (s.map (·.moved place)).node options position raw = (s.node options id raw).moved place := by
  have blocks := parentOf_map (f := (·.moved place)) (fun _ => rfl) s (depthOf options.tabWidth raw) (isBlankLine raw)
  simp only [node, Node.moved, unmarked, blocks, Nat.add_sub_cancel, own, Option.map_map]
  rfl

theorem next_moved (unmarked : ∀ number, readable number raw = raw) (own : place id = position) (n : Node) :
    (s.map (·.moved place)).next position raw (n.moved place) = (s.next id raw n).map (·.moved place) := by
  have depth : (n.moved place).depth = n.depth := rfl
  have kind : (n.moved place).kind = n.kind := rfl
  have enclosing := enclosing_map (f := (·.moved place)) (fun _ => rfl) s n.depth
  rw [next, next, unmarked, unmarked]
  split
  · rfl
  · rw [depth, kind, enclosing, List.head?_map, ← own]
    rfl

theorem next_of_blank (unmarked : ∀ number, readable number raw = raw) (blank : Text.allBlank raw = true) (n : Node) :
    s.next id raw n = s := by
  rw [next, unmarked, isBlankLine_eq, if_pos blank]

/-- The nodes with content are those of the lines with content, at their places among these. -/
theorem nodes_filter (options : ParseOptions) {lines : List Text}
    (unmarked : ∀ raw ∈ lines, ∀ number, readable number raw = raw)
    (counts : ∀ i, place (id + i) = position + ((lines.take i).filter (!Text.allBlank ·)).length) :
    nodes options (s.map (·.moved place)) position (lines.filter (!Text.allBlank ·)) =
      ((nodes options s id lines).filter (!·.isBlank)).map (·.moved place) := by
  induction lines generalizing s id position with
  | nil => rfl
  | cons raw rest ih =>
    obtain ⟨first, later⟩ := List.forall_mem_cons.mp unmarked
    have shown : (s.node options id raw).isBlank = Text.allBlank raw := by
      rw [isBlank_node, first, isBlankLine_eq]
    have own : place id = position := counts 0
    have counts' : ∀ i, place (id + 1 + i) = position + ([raw].filter (!Text.allBlank ·)).length +
        ((rest.take i).filter (!Text.allBlank ·)).length := by
      intro i
      have next := counts (i + 1)
      rw [List.take_succ_cons, ← List.singleton_append, List.filter_append, List.length_append] at next
      rw [Nat.add_right_comm, Nat.add_assoc, next, Nat.add_assoc]
    rw [nodes, List.filter_cons, List.filter_cons, shown]
    cases blank : Text.allBlank raw with
    | true =>
      -- A blank line takes no place and leaves the placing as it is.
      have takes : ([raw].filter (!Text.allBlank ·)).length = 0 := by simp [blank]
      rw [takes] at counts'
      rw [next_of_blank first blank]
      exact ih later counts'
    | false =>
      have takes : ([raw].filter (!Text.allBlank ·)).length = 1 := by simp [blank]
      rw [takes] at counts'
      rw [Bool.not_false, if_pos rfl, if_pos rfl, nodes, List.map_cons, node_moved first own, next_moved first own,
        ih later counts']

end Placing

/-! ### The tree without blank lines -/

/-- The place of a node among the nodes with content: how many of these come before it. -/
def Tree.contentPlace (t : Tree) (id : Nat) : Nat := ((t.nodes.take id).filter (!·.isBlank)).length

theorem getElem?_filter_of_pos {α : Type} {p : α → Bool} {items : List α} {i : Nat} {x : α} (found : items[i]? = some x)
    (holds : p x = true) : (items.filter p)[((items.take i).filter p).length]? = some x := by
  induction items generalizing i with
  | nil => cases found
  | cons a items ih =>
    cases i with
    | zero =>
      obtain rfl : a = x := Option.some.inj found
      rw [List.filter_cons_of_pos holds]
      rfl
    | succ i =>
      have later := ih found
      rw [List.take_succ_cons]
      by_cases first : p a = true
      · rw [List.filter_cons_of_pos first, List.filter_cons_of_pos first]
        exact later
      · rw [List.filter_cons_of_neg first, List.filter_cons_of_neg first]
        exact later

section
variable {options : ParseOptions} {text : Text}

theorem Tree.getElem?_contentNodes {t : Tree} {id : Nat} {n : Node} (found : t.get? id = some n)
    (content : n.isBlank = false) : t.contentNodes[t.contentPlace id]? = some n :=
  getElem?_filter_of_pos found (by rw [content]; rfl)

theorem map_isBlank_parse (options : ParseOptions) (text : Text) :
    (parse options text).nodes.map Node.isBlank = (readLines text).map Text.allBlank := by
  refine List.ext_getElem ?_ fun i inside _ => ?_
  · rw [List.length_map, List.length_map, length_readLines options]
  · rw [List.length_map] at inside
    have within : i < (readLines text).length := by rwa [length_readLines options]
    rw [List.getElem_map, List.getElem_map]
    exact (parse_shape (List.getElem?_eq_getElem inside) (List.getElem?_eq_getElem within)).1

/-- The place of a node is the place of its line among the lines with content. -/
theorem contentPlace_parse (options : ParseOptions) (text : Text) (id : Nat) :
    (parse options text).contentPlace id = (((readLines text).take id).filter (!Text.allBlank ·)).length := by
  have count : ∀ {α : Type} (blank : α → Bool) (items : List α),
      (items.filter (!blank ·)).length = ((items.map blank).filter (!·)).length := by
    intro α blank items
    rw [List.filter_map, List.length_map]
    rfl
  rw [Tree.contentPlace, count Node.isBlank, count Text.allBlank, List.map_take, List.map_take, map_isBlank_parse]

/-- A script without byte order marks is read as it stands. -/
theorem readable_of_mem_sourceLines (unmarked : '\uFEFF' ∉ text) {raw : Text} (member : raw ∈ sourceLines text)
    (number : Nat) : readable number raw = raw := by
  refine readable_of_unmarked (fun first => unmarked ?_) number
  exact mem_of_mem_sourceLines (List.mem_of_head? first) member

theorem readLines_of_unmarked (unmarked : '\uFEFF' ∉ text) : readLines text = sourceLines text := by
  refine List.ext_getElem? fun i => ?_
  rw [readLines, List.getElem?_mapIdx]
  cases found : (sourceLines text)[i]? with
  | none => rfl
  | some raw => rw [Option.map_some, readable_of_mem_sourceLines unmarked (List.mem_of_getElem? found)]

/-- The nodes of the lines that are left are the nodes with content at their places. -/
theorem map_bare_parse_withoutBlankLines (options : ParseOptions) (unmarked : '\uFEFF' ∉ text) :
    (parse options (withoutBlankLines text)).nodes.map Node.bare =
      (parse options text).contentNodes.map fun n => n.bare.moved (parse options text).contentPlace := by
  have counts : ∀ i, (parse options text).contentPlace (0 + i) =
      0 + (((sourceLines text).take i).filter (!Text.allBlank ·)).length := by
    intro i
    rw [Nat.zero_add, Nat.zero_add, contentPlace_parse, readLines_of_unmarked unmarked]
  have nodes := Placing.nodes_filter options (s := {}) (fun _ => readable_of_mem_sourceLines unmarked) counts
  have content : (Placing.nodes options {} 0 (sourceLines text)).filter (!·.isBlank) =
      (parse options text).contentNodes.map Node.bare := by
    rw [← map_bare_parse, List.filter_map, Tree.contentNodes]
    rfl
  rw [content, List.map_map] at nodes
  rw [map_bare_parse, sourceLines_withoutBlankLines]
  exact nodes

end

/-- Blank lines are transparent. Without them a script has a node for each node with
    content, at the place of that node among these. It stands for the same line, read
    in the same way, and its parent is at the place of the parent, which has content. -/
theorem parse_withoutBlankLines (options : ParseOptions) {text : Text} (unmarked : '\uFEFF' ∉ text) :
    (parse options (withoutBlankLines text)).size = (parse options text).contentNodes.length ∧
    ∀ id n, (parse options text).get? id = some n → n.isBlank = false →
      (parse options text).contentNodes[(parse options text).contentPlace id]? = some n ∧
      ∃ m, (parse options (withoutBlankLines text)).get? ((parse options text).contentPlace id) = some m ∧
        m.raw = n.raw ∧ m.depth = n.depth ∧ m.toLine = n.toLine ∧
        m.parent = n.parent.map (parse options text).contentPlace ∧
        ∀ p, n.parent = some p → ∃ above, (parse options text).get? p = some above ∧ above.isBlank = false := by
  have nodes := map_bare_parse_withoutBlankLines options unmarked
  constructor
  · have lengths := congrArg List.length nodes
    rwa [List.length_map, List.length_map] at lengths
  intro id n found content
  have place := Tree.getElem?_contentNodes found content
  refine ⟨place, ?_⟩
  have made := congrArg (·[(parse options text).contentPlace id]?) nodes
  rw [List.getElem?_map, List.getElem?_map, place, Option.map_some] at made
  obtain ⟨m, found', same⟩ := Option.map_eq_some_iff.mp made
  have raw := congrArg Node.raw same
  have depth := congrArg Node.depth same
  have line := congrArg Node.toLine same
  have parent := congrArg Node.parent same
  refine ⟨m, found', raw, depth, line, parent, fun p up => ?_⟩
  obtain ⟨above, at_p⟩ := (linked_parse options text).exists_parent found up
  exact ⟨above, at_p, isBlank_of_parent found up at_p⟩

/-- Blank lines between the entries of an options block and after an event, one of them
    an ideographic space, and a node below them. -/
theorem parse_withoutBlankLines_counted_entries :
    ∃ (text : Text) (n m : Node), '\uFEFF' ∉ text ∧
      withoutBlankLines text = "options:\n    a: b\non join:\n    stop it".toList ∧
      (parse ⟨4, true⟩ text).get? 6 = some n ∧ n.parent = some 4 ∧
      (parse ⟨4, true⟩ (withoutBlankLines text)).get? 3 = some m ∧ m.parent = some 2 ∧ m.toLine = n.toLine := by
  let text := "options:\n\u3000\n    a: b\n\t\non join:\n  \n    stop it".toList
  have unmarked : '\uFEFF' ∉ text := by decide
  obtain ⟨-, nodes⟩ := parse_withoutBlankLines ⟨4, true⟩ unmarked
  have found : ∃ n, (parse ⟨4, true⟩ text).get? 6 = some n ∧ n.isBlank = false ∧ n.parent = some 4 :=
    ⟨_, rfl, rfl, rfl⟩
  obtain ⟨n, found, content, up⟩ := found
  obtain ⟨-, m, found', -, -, line, parent, -⟩ := nodes 6 n found content
  have place : (parse ⟨4, true⟩ text).contentPlace 6 = 3 := by decide +kernel
  have above : (parse ⟨4, true⟩ text).contentPlace 4 = 2 := by decide +kernel
  rw [place] at found'
  rw [up, Option.map_some, above] at parent
  exact ⟨text, n, m, unmarked, by decide, found, up, found', parent, line⟩

end ScriptAtlas
