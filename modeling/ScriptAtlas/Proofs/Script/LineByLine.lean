import ScriptAtlas.Proofs.Script.Forest

/-!
Scripts compared line by line. A text is made of its lines with their line breaks
(`wholeLines`), so what is said of the lines of an edited text is proved for its
first line and the text behind it (`lines_induction`, `sourceLines_edited`). Later
lines ask for the depth and the kind of a line and whether it is blank, and for
nothing else. So if a view of nodes keeps these (`Node.IsView`) and the lines of two
scripts become nodes that look the same, one by one, the two trees look the same
(`mapNodes_parse_congr`). In particular a tree is given by the depths and contents
of its lines, up to the lines as they stand in the source (`withoutRaw_parse_congr`),
and the places of lines by the depths and by which lines are blank (`parent_congr`).
-/
namespace ScriptAtlas

/-! ### Lines with their line breaks -/

/-- The lines of a text, each with the line break that ends it. -/
def wholeLines : Text → List Text
  | [] => []
  | c :: s => if c = '\n' then [c] :: wholeLines s else Text.growFirst c (wholeLines s)

variable {line : Text}

theorem wholeLines_append_break (unbroken : '\n' ∉ line) (rest : Text) :
    wholeLines (line ++ '\n' :: rest) = (line ++ ['\n']) :: wholeLines rest := by
  induction line with
  | nil => simp [wholeLines]
  | cons c line ih =>
    obtain ⟨apart, unbroken⟩ := List.ne_and_not_mem_of_not_mem_cons unbroken
    simp [wholeLines, apart.symm, ih unbroken, Text.growFirst]

theorem wholeLines_of_unbroken (some : line ≠ []) (unbroken : '\n' ∉ line) : wholeLines line = [line] := by
  induction line with
  | nil => exact absurd rfl some
  | cons c line ih =>
    obtain ⟨apart, unbroken⟩ := List.ne_and_not_mem_of_not_mem_cons unbroken
    by_cases last : line = []
    · simp [wholeLines, apart.symm, last, Text.growFirst]
    · simp [wholeLines, apart.symm, ih last unbroken, Text.growFirst]

theorem sourceLines_of_unbroken (some : line ≠ []) (unbroken : '\n' ∉ line) : sourceLines line = [line] := by
  have filled : line.isEmpty = false := List.isEmpty_eq_false_iff.mpr some
  have whole : Text.dropFinal '\n' line = line := by
    rw [Text.dropFinal]
    exact if_neg fun last => unbroken (List.mem_of_getLast? last)
  rw [sourceLines, filled, whole, if_neg Bool.false_ne_true, Text.pieces_of_not_mem unbroken]

theorem sourceLines_append_break (unbroken : '\n' ∉ line) (rest : Text) :
    sourceLines (line ++ '\n' :: rest) = line :: sourceLines rest := by
  have broken : (line ++ ['\n']).getLast? = some '\n' := List.getLast?_concat
  have filled : (line ++ ['\n']).isEmpty = false := by simp
  have first : sourceLines (line ++ ['\n']) = [line] := by
    rw [sourceLines, filled, if_neg Bool.false_ne_true, Text.dropFinal_concat, Text.pieces_of_not_mem unbroken]
  have seam := sourceLines_append broken rest
  rwa [first, List.append_assoc, List.singleton_append, List.singleton_append] at seam

/-- A text is empty, or a last line without a line break, or a line with its line
    break and a text behind it. -/
theorem lines_induction {P : Text → Prop} (none : P []) (last : ∀ line, line ≠ [] → '\n' ∉ line → P line)
    (next : ∀ line rest, '\n' ∉ line → P rest → P (line ++ '\n' :: rest)) (text : Text) : P text := by
  induction length : text.length using Nat.strongRecOn generalizing text with
  | ind length ih =>
    by_cases broken : '\n' ∈ text
    · obtain ⟨line, rest, rfl, unbroken⟩ := List.eq_append_cons_of_mem broken
      refine next line rest unbroken (ih rest.length ?_ rest rfl)
      rw [List.length_append, List.length_cons] at length
      omega
    · by_cases empty : text = []
      · exact empty ▸ none
      · exact last text empty broken

theorem mem_of_mem_sourceLines {c : Char} {text : Text} (inside : c ∈ line) (member : line ∈ sourceLines text) :
    c ∈ text := by
  induction text using lines_induction with
  | none => cases member
  | last first filled unbroken =>
    rw [sourceLines_of_unbroken filled unbroken, List.mem_singleton] at member
    exact member ▸ inside
  | next first rest unbroken ih =>
    rw [sourceLines_append_break unbroken] at member
    rcases List.mem_cons.mp member with rfl | later
    · exact List.mem_append_left _ inside
    · exact List.mem_append_right _ (List.mem_cons_of_mem _ (ih later))

/-- Lines that are edited up to their line breaks are the lines of the edited text. -/
theorem sourceLines_edited {edit : Nat → Text → Text} (ended : ∀ i line, edit i (line ++ ['\n']) = edit i line ++ ['\n'])
    (filled : ∀ i line, line ≠ [] → edit i line ≠ []) (unbroken : ∀ i line, '\n' ∉ line → '\n' ∉ edit i line)
    (text : Text) : sourceLines ((wholeLines text).mapIdx edit).flatten = (sourceLines text).mapIdx edit := by
  induction text using lines_induction generalizing edit with
  | none => rfl
  | last line some whole =>
    have edited := sourceLines_of_unbroken (filled 0 line some) (unbroken 0 line whole)
    rw [wholeLines_of_unbroken some whole, sourceLines_of_unbroken some whole, List.mapIdx_singleton,
      List.flatten_singleton, edited]
  | next line rest whole ih =>
    rw [wholeLines_append_break whole, sourceLines_append_break whole, List.mapIdx_cons, List.mapIdx_cons,
      List.flatten_cons, ended, List.append_assoc, List.singleton_append,
      sourceLines_append_break (unbroken 0 line whole),
      ih (fun i => ended (i + 1)) (fun i => filled (i + 1)) fun i => unbroken (i + 1)]

/-! ### Nodes that look the same -/

/-- A view of nodes that keeps their links and what the lines after them ask for. -/
structure Node.IsView (view : Node → Node) : Prop extends Tree.KeepsLinks view where
  depth : ∀ n, (view n).depth = n.depth
  kind : ∀ n, (view n).kind = n.kind
  isBlank : ∀ n, (view n).isBlank = n.isBlank

theorem Node.isView_withoutRaw : IsView withoutRaw :=
  { keepsLinks_withoutRaw with depth := fun _ => rfl, kind := fun _ => rfl, isBlank := fun _ => rfl }

namespace Placing

variable {options : ParseOptions} {view : Node → Node}

/-- Lines that look the same mean the same for the lines after them. -/
theorem next_congr (isView : Node.IsView view) {s : Placing} {id : Nat} {raw raw' : Text}
    (same : view (s.node options id raw) = view (s.node options id raw')) :
    s.next id raw (s.node options id raw) = s.next id raw' (s.node options id raw') := by
  have depth := congrArg Node.depth same
  have kind := congrArg Node.kind same
  have blank := congrArg Node.isBlank same
  rw [isView.depth, isView.depth] at depth
  rw [isView.kind, isView.kind] at kind
  rw [isView.isBlank, isView.isBlank, isBlank_node, isBlank_node] at blank
  rw [next, next, blank, depth, kind]

/-- If all that a view shows of a line's node can be told from what `look` says of the
    line, lines of which it says the same become nodes that look the same. -/
theorem map_nodes_congr {β : Type} (isView : Node.IsView view) {look : Nat → Text → β} {id : Nat}
    (tells : ∀ (s : Placing) i raw raw', look i raw = look i raw' →
      view (s.node options (id + i) raw) = view (s.node options (id + i) raw'))
    {lines lines' : List Text} (same : lines.mapIdx look = lines'.mapIdx look) (s : Placing) :
    (nodes options s id lines).map view = (nodes options s id lines').map view := by
  induction lines generalizing s id look lines' with
  | nil =>
    cases lines' with
    | nil => rfl
    | cons raw' rest' => simp at same
  | cons raw rest ih =>
    cases lines' with
    | nil => simp at same
    | cons raw' rest' =>
      rw [List.mapIdx_cons, List.mapIdx_cons, List.cons.injEq] at same
      obtain ⟨first, later⟩ := same
      have made := tells s 0 raw raw' first
      rw [Nat.add_zero] at made
      rw [nodes, nodes, List.map_cons, List.map_cons, made, next_congr isView made]
      refine congrArg _ (ih (fun s i raw raw' alike => ?_) later _)
      rw [Nat.add_right_comm, Nat.add_assoc]
      exact tells s (i + 1) raw raw' alike

end Placing

/-- Two scripts whose lines look the same, one by one, have trees that look the same. -/
theorem mapNodes_parse_congr {options : ParseOptions} {view : Node → Node} {β : Type} {look : Nat → Text → β}
    (isView : Node.IsView view)
    (tells : ∀ (s : Placing) id raw raw', look id raw = look id raw' →
      view (s.node options id raw) = view (s.node options id raw'))
    {text text' : Text} (same : (sourceLines text).mapIdx look = (sourceLines text').mapIdx look) :
    (parse options text).mapNodes view = (parse options text').mapNodes view := by
  have keeps : Tree.KeepsLinks view := isView.toKeepsLinks
  have alike : (Placing.nodes options {} 0 (sourceLines text)).map view =
      (Placing.nodes options {} 0 (sourceLines text')).map view := by
    refine Placing.map_nodes_congr isView (fun s i raw raw' told => ?_) same {}
    rw [Nat.zero_add]
    exact tells s i raw raw' told
  rw [parse, parse, Tree.mapNodes_ofNodes keeps, Tree.mapNodes_ofNodes keeps, alike]

/-! ### Depth and content -/

/-- What a tree holds of a line by itself. -/
def appearance (options : ParseOptions) (line : Text) : Nat × Text := (lineDepth options line, contentOf line)

/-- The place of a line and what it is depend on its depth and its content. -/
theorem Placing.withoutRaw_node {options : ParseOptions} {id : Nat} {raw raw' : Text}
    (same : appearance options (readable (id + 1) raw) = appearance options (readable (id + 1) raw')) (s : Placing) :
    (s.node options id raw).withoutRaw = (s.node options id raw').withoutRaw := by
  obtain ⟨depth, content⟩ := Prod.mk.inj same
  have blank : isBlankLine (readable (id + 1) raw) = isBlankLine (readable (id + 1) raw') := by
    rw [isBlankLine_eq, isBlankLine_eq, ← isEmpty_contentOf, ← isEmpty_contentOf, content]
  rw [lineDepth, lineDepth, ← depthOf_eq, ← depthOf_eq] at depth
  simp only [Node.withoutRaw, node, Line.read, depth, content, blank]

theorem map_readLines {β : Type} (f : Text → β) (text : Text) :
    (readLines text).map f = (sourceLines text).mapIdx fun i raw => f (readable (i + 1) raw) := by
  refine List.ext_getElem? fun i => ?_
  rw [List.getElem?_map, readLines, List.getElem?_mapIdx, List.getElem?_mapIdx, Option.map_map]
  rfl

/-- A tree depends on no more than the depths and the contents of the lines as they
    are read, up to the lines as they stand in the source. -/
theorem withoutRaw_parse_congr {options : ParseOptions} {text text' : Text}
    (same : (readLines text).map (appearance options) = (readLines text').map (appearance options)) :
    (parse options text).withoutRaw = (parse options text').withoutRaw := by
  rw [map_readLines, map_readLines] at same
  show (parse options text).mapNodes Node.withoutRaw = (parse options text').mapNodes Node.withoutRaw
  refine mapNodes_parse_congr Node.isView_withoutRaw ?_ same
  intro s id raw raw' alike
  exact s.withoutRaw_node alike

/-! ### Lines in the same places -/

/-- Whether a line is blank, and its depth: what decides about the place of lines. -/
def lineShape (options : ParseOptions) (line : Text) : Bool × Nat := (Text.allBlank line, lineDepth options line)

theorem lastBefore_map {α β : Type} (f : α → β) (P : β → Prop) (items : List α) (i p : Nat) :
    LastBefore P (items.map f) i p ↔ LastBefore (fun x => P (f x)) items i p := by
  simp only [LastBefore, List.getElem?_map, Option.map_eq_some_iff]
  constructor
  · rintro ⟨less, ⟨-, ⟨x, found, rfl⟩, holds⟩, none⟩
    exact ⟨less, ⟨x, found, holds⟩, fun j x later earlier found => none j _ later earlier ⟨x, found, rfl⟩⟩
  · rintro ⟨less, ⟨x, found, holds⟩, none⟩
    refine ⟨less, ⟨_, ⟨x, found, rfl⟩, holds⟩, ?_⟩
    rintro j - later earlier ⟨x, found, rfl⟩
    exact none j x later earlier found

section
variable {options : ParseOptions} {text text' : Text} {i : Nat} {n m : Node}

theorem shape_of_get? (found : (parse options text).nodes[i]? = some n) :
    ((readLines text).map (lineShape options))[i]? = some (n.isBlank, n.depth) := by
  have within : i < (readLines text).length := by
    rw [length_readLines options]
    exact (List.getElem?_eq_some_iff.mp found).1
  have read := List.getElem?_eq_getElem within
  obtain ⟨blank, depth⟩ := parse_shape found read
  rw [List.getElem?_map, read, Option.map_some, lineShape, ← blank, ← depth]

variable (same : (readLines text).map (lineShape options) = (readLines text').map (lineShape options))
include same

/-- The last line with a property before a line is the same one in scripts of the same shape. -/
theorem lastWhere?_congr (P : Bool → Nat → Bool) (i : Nat) :
    (lastWhere? (fun n : Node => P n.isBlank n.depth) (((parse options text).nodes.map Node.bare).take i)).map (·.1) =
      (lastWhere? (fun n : Node => P n.isBlank n.depth) (((parse options text').nodes.map Node.bare).take i)).map (·.1) := by
  have agree : ∀ (n : Node) (line : Text), n.isBlank = Text.allBlank line → n.depth = lineDepth options line →
      (P n.isBlank n.depth = true ↔ P (lineShape options line).1 (lineShape options line).2 = true) := by
    intro n line blank depth
    rw [blank, depth, lineShape]
  have shapes : ∀ (text : Text) (p : Nat),
      (lastWhere? (fun n : Node => P n.isBlank n.depth) (((parse options text).nodes.map Node.bare).take i)).map (·.1) =
        some p ↔ LastBefore (fun shape => P shape.1 shape.2 = true) ((readLines text).map (lineShape options)) i p := by
    intro text p
    rw [lastBefore_map, ← exists_lastWhere?_iff agree i p]
    simp [Option.map_eq_some_iff]
  refine Option.ext fun p => ?_
  rw [shapes, shapes, same]

theorem isBlank_depth_congr (found : (parse options text).nodes[i]? = some n)
    (found' : (parse options text').nodes[i]? = some m) : n.isBlank = m.isBlank ∧ n.depth = m.depth := by
  have shapes := (shape_of_get? found).symm.trans ((congrArg (·[i]?) same).trans (shape_of_get? found'))
  exact Prod.mk.inj (Option.some.inj shapes)

theorem parent_congr_of_content (found : (parse options text).nodes[i]? = some n)
    (found' : (parse options text').nodes[i]? = some m) (content : n.isBlank = false) : n.parent = m.parent := by
  obtain ⟨blank, depth⟩ := isBlank_depth_congr same found found'
  rw [parse_parent_of_content found content, parse_parent_of_content found' (blank ▸ content), ← depth]
  exact lastWhere?_congr same (fun blank depth => !blank && decide (depth < n.depth)) i

/-- The place of a line depends on no more than the shapes of the lines. -/
theorem parent_congr (found : (parse options text).nodes[i]? = some n)
    (found' : (parse options text').nodes[i]? = some m) : n.parent = m.parent := by
  obtain ⟨alike, -⟩ := isBlank_depth_congr same found found'
  cases blank : n.isBlank with
  | false => exact parent_congr_of_content same found found' blank
  | true =>
    rw [parse_parent_of_blank found blank, parse_parent_of_blank found' (alike ▸ blank)]
    have places := lastWhere?_congr same (fun blank _ => !blank) i
    -- The last line with content is the same one, and its place is known.
    cases last : lastWhere? (fun n : Node => !n.isBlank) (((parse options text).nodes.map Node.bare).take i) with
    | none =>
      rw [last, Option.map_none, eq_comm, Option.map_eq_none_iff] at places
      rw [places]
    | some x =>
      obtain ⟨p, x⟩ := x
      rw [last, Option.map_some, eq_comm, Option.map_eq_some_iff] at places
      obtain ⟨⟨q, y⟩, last', rfl⟩ := places
      obtain ⟨at_q, shown, -⟩ := lastWhere?_eq_some_iff.mp last
      obtain ⟨at_q', -, -⟩ := lastWhere?_eq_some_iff.mp last'
      obtain ⟨first, found, rfl⟩ := exists_of_getElem?_before at_q
      obtain ⟨second, found', rfl⟩ := exists_of_getElem?_before at_q'
      have content : first.bare.isBlank = false := by simpa using shown
      rw [last']
      show first.parent = second.parent
      exact parent_congr_of_content same found found' content

end

end ScriptAtlas
