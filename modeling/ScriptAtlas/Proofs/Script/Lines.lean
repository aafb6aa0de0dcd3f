import ScriptAtlas.Proofs.Script.Placement

/-!
The lines of a script in its tree. The nodes stand for the lines one by one, so
the source can be put together from them (`map_raw_parse`), the number of a line
finds its node (`atLine?_eq_some_iff`), and a node holds what its own content
reads as below its parent (`parse_keeps_lines`).
-/
namespace ScriptAtlas

/-- The lines of a script with the line breaks between them are the script
    without its final line break. -/
theorem joinWith_sourceLines (text : Text) : Text.joinWith ['\n'] (sourceLines text) = Text.dropFinal '\n' text := by
  rw [sourceLines]
  by_cases empty : text.isEmpty = true
  · rw [if_pos empty, List.isEmpty_iff.mp empty]
    rfl
  · rw [if_neg empty, Text.joinWith_pieces]

theorem not_mem_of_mem_sourceLines {text line : Text} (member : line ∈ sourceLines text) : '\n' ∉ line := by
  rw [sourceLines] at member
  split at member
  · cases member
  · exact Text.not_mem_of_mem_pieces line member

/-- A line of a script is read without a line break. -/
theorem not_mem_content_of_mem_parse {options : ParseOptions} {text : Text} {n : Node}
    (member : n ∈ (parse options text).nodes) : '\n' ∉ n.content := by
  obtain ⟨i, found⟩ := List.getElem?_of_mem member
  obtain ⟨raw, line, -, -, read⟩ := parse_line found
  have content : n.content = contentOf (readable (i + 1) raw) := congrArg Line.content read
  rw [content]
  intro broken
  have inside := (List.mem_filter.mp (Text.mem_of_mem_trim broken)).1
  refine not_mem_of_mem_sourceLines (List.mem_of_getElem? line) ?_
  unfold readable at inside
  split at inside
  · exact List.dropWhile_subset _ inside
  · exact inside

theorem map_raw_parse (options : ParseOptions) (text : Text) :
    (parse options text).nodes.map (·.raw) = sourceLines text := by
  refine List.ext_getElem? fun i => ?_
  rw [List.getElem?_map]
  cases found : (parse options text).nodes[i]? with
  | none =>
    have beyond : (sourceLines text).length ≤ i := by
      rw [← length_parse options]
      exact List.getElem?_eq_none_iff.mp found
    rw [List.getElem?_eq_none beyond]
    rfl
  | some n =>
    obtain ⟨raw, line, same, -⟩ := parse_line found
    rw [line, Option.map_some, same]

/-- In a tree whose nodes are numbered in order, the number of a line finds the
    node in its place and no other. -/
theorem Tree.atLine?_eq_some_iff {t : Tree} (numbered : ∀ i n, t.get? i = some n → n.number = i + 1)
    {number i : Nat} {n : Node} : t.atLine? number = some (i, n) ↔ number = i + 1 ∧ t.get? i = some n := by
  cases number with
  | zero => simp [atLine?]
  | succ place =>
    rw [atLine?]
    cases found : t.get? place with
    | some m =>
      have own : (m.number == place + 1) = true := beq_iff_eq.mpr (numbered place m found)
      rw [Option.filter_some, if_pos own, Option.map_some, Option.some_or, Option.some.injEq, Prod.mk.injEq]
      constructor
      · rintro ⟨rfl, rfl⟩
        exact ⟨rfl, found⟩
      · rintro ⟨same, at_i⟩
        have same : place = i := Nat.succ.inj same
        exact ⟨same, Option.some.inj (found.symm.trans (same ▸ at_i))⟩
    | none =>
      -- Past the last line no node has the number, so looking for it finds none.
      have absent : t.entries.find? (·.2.number == place + 1) = none := by
        refine List.find?_eq_none.mpr fun e member same => ?_
        obtain ⟨⟨m, j⟩, listed, rfl⟩ := List.mem_map.mp member
        have at_j : t.get? j = some m := List.mem_zipIdx_iff_getElem?.mp listed
        have numbers : m.number = place + 1 := beq_iff_eq.mp same
        have place_eq : j = place := Nat.succ.inj ((numbered j m at_j).symm.trans numbers)
        rw [place_eq, found] at at_j
        cases at_j
      rw [absent, Option.filter_none, Option.map_none, Option.none_or]
      constructor
      · intro impossible
        cases impossible
      · rintro ⟨same, at_i⟩
        rw [← Nat.succ.inj same, found] at at_i
        cases at_i

/-- The tree of a script loses and adds nothing. Its lines give the script back,
    up to a final line break; they are numbered from 1 and found by their numbers;
    and each is what its content reads as, below the kind that its parent has. -/
theorem parse_keeps_lines (options : ParseOptions) (text : Text) :
    Text.joinWith ['\n'] ((parse options text).nodes.map (·.raw)) = Text.dropFinal '\n' text ∧
    (∀ number i n, (parse options text).atLine? number = some (i, n) ↔
      number = i + 1 ∧ (parse options text).get? i = some n) ∧
    ∀ i n, (parse options text).get? i = some n →
      n.number = i + 1 ∧ '\n' ∉ n.raw ∧ n.content = contentOf (readable (i + 1) n.raw) ∧
        n.toLine = Line.read options ((parse options text).parentKind n) n.content := by
  refine ⟨?_, fun number i n => ?_, fun i n found => ?_⟩
  · rw [map_raw_parse, joinWith_sourceLines]
  · refine Tree.atLine?_eq_some_iff fun i n found => ?_
    obtain ⟨_, -, -, number, -⟩ := parse_line found
    exact number
  · obtain ⟨raw, line, rfl, number, read⟩ := parse_line found
    have content : n.content = contentOf (readable (i + 1) n.raw) := congrArg Line.content read
    refine ⟨number, not_mem_of_mem_sourceLines (List.mem_of_getElem? line), content, ?_⟩
    -- The content is its own content, so it is read as the line was.
    have settled : contentOf n.content = n.content := by rw [content, contentOf_contentOf]
    calc n.toLine = Line.read options _ (readable (i + 1) n.raw) := read
      _ = Line.ofContent options _ n.content := by rw [Line.read, ← content]
      _ = Line.read options _ n.content := by rw [Line.read, settled]

end ScriptAtlas
