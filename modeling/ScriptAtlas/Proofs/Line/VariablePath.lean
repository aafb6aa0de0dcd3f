import ScriptAtlas.Proofs.Line.AssignedValue
import ScriptAtlas.Proofs.Text.Parts

/-!
The variable of an assignment and its path. What stands in the braces gives the name, the
visibility, the origin and the segments of the path, whatever the value is; but whether
there is a path at all is asked of the whole line, so a path mark in the value gives an
empty path to a variable without one (`variable_of_written`). An element of a list variable
can be written with inner braces or without them (`element_forms_agree`).
-/
namespace ScriptAtlas.Assignment

variable {name base path : Text}

/-! ### Whether there is a path -/

/-- Nothing of the line around the name and the value is part of a path mark. -/
theorem infix_written_iff (name value : Text) :
    pathMark <:+: written name value ↔ pathMark <:+: name ∨ pathMark <:+: value := by
  have between : " to ".toList ++ value = " to".toList ++ ' ' :: value := rfl
  have first : ¬ pathMark <:+: "set ".toList := Text.hasPart_iff_infix.not.mp (by decide)
  have second : ¬ pathMark <:+: " to".toList := Text.hasPart_iff_infix.not.mp (by decide)
  rw [written_eq, Text.infix_append_cons_iff (by decide), or_iff_right first, Text.infix_append_cons_iff (by decide),
    between, Text.infix_append_cons_iff (by decide), or_iff_right second]

/-- A name with a path mark has its path whatever the value is. Without one the path has no
    segments, and there is one if the value has a path mark. -/
theorem exists_ofLine?_written_path (plain : '{' ∉ name ∧ '}' ∉ name) (value : Text) :
    ∃ a, ofLine? (written name value) = some a ∧ (a.name, a.visibility, a.fromOption) = variableOf (target name).1 ∧
      (pathMark <:+: name → a.path = some (target name).2) ∧
      (¬ pathMark <:+: name → a.path.getD [] = [] ∧ (a.path.isSome ↔ pathMark <:+: value)) := by
  refine ⟨_, ofLine?_written plain value, rfl, fun marked => ?_, fun unmarked => ?_⟩
  · have found : Text.hasPart pathMark (written name value) = true :=
      Text.hasPart_iff_infix.mpr ((infix_written_iff name value).mpr (.inl marked))
    exact if_pos found
  · have whole : target name = (name, []) := by rw [target, Text.cutAtText_eq_none_iff.mpr unmarked]
    have found : Text.hasPart pathMark (written name value) = true ↔ pathMark <:+: value := by
      rw [Text.hasPart_iff_infix, infix_written_iff, or_iff_right unmarked]
    rw [← found, whole]
    split <;> simp_all

/-- Two values for the same target give the same variable with the same segments of the
    path. They give the same path exactly if the name has a path mark, or both values or
    neither of them has one. -/
theorem variable_of_written (plain : '{' ∉ name ∧ '}' ∉ name) (value other : Text) :
    ∃ a b, ofLine? (written name value) = some a ∧ ofLine? (written name other) = some b ∧
      a.name = b.name ∧ a.visibility = b.visibility ∧ a.fromOption = b.fromOption ∧
      a.path.getD [] = b.path.getD [] ∧
      (a.path = b.path ↔ pathMark <:+: name ∨ (pathMark <:+: value ↔ pathMark <:+: other)) := by
  obtain ⟨a, made, target, marked, unmarked⟩ := exists_ofLine?_written_path plain value
  obtain ⟨b, made', target', marked', unmarked'⟩ := exists_ofLine?_written_path plain other
  have same := target.trans target'.symm
  simp only [Prod.mk.injEq] at same
  refine ⟨a, b, made, made', same.1, same.2.1, same.2.2, ?_⟩
  by_cases mark : pathMark <:+: name
  · rw [marked mark, marked' mark]
    exact ⟨rfl, iff_of_true rfl (.inl mark)⟩
  · obtain ⟨segments, present⟩ := unmarked mark
    obtain ⟨segments', present'⟩ := unmarked' mark
    refine ⟨segments.trans segments'.symm, ?_⟩
    rw [or_iff_right mark, ← present, ← present']
    -- Without segments two paths are the same if both are there or both are missing.
    cases first : a.path <;> cases second : b.path <;> simp_all

theorem variable_of_written_listed :
    ('{' ∉ "@list::1".toList ∧ '}' ∉ "@list::1".toList) ∧
    ∃ a b, ofLine? (written "@list::1".toList "x::y".toList) = some a ∧
      ofLine? (written "@list::1".toList "5".toList) = some b ∧
      a.name = b.name ∧ a.visibility = b.visibility ∧ a.fromOption = b.fromOption ∧ a.path = b.path := by
  have plain : '{' ∉ "@list::1".toList ∧ '}' ∉ "@list::1".toList := by decide
  refine ⟨plain, ?_⟩
  obtain ⟨a, b, made, made', named, visible, origin, -, path⟩ := variable_of_written plain "x::y".toList "5".toList
  exact ⟨a, b, made, made', named, visible, origin, path.mpr (.inl (Text.hasPart_iff_infix.mp (by decide)))⟩

/-- A path mark in the value gives a path to a variable that has none otherwise. -/
theorem path_from_value :
    ('{' ∉ "x".toList ∧ '}' ∉ "x".toList) ∧
    ∃ a b, ofLine? (written "x".toList "a".toList) = some a ∧ ofLine? (written "x".toList "a::b".toList) = some b ∧
      a.path = none ∧ b.path = some [] ∧ a.path ≠ b.path := by
  refine ⟨by decide, _, _, rfl, rfl, ?_⟩
  decide

/-! ### The element form -/

/-- The line that assigns a value to an element of a list variable. -/
def writtenElement (base path value : Text) : Text :=
  opening ++ '{' :: (base ++ '}' :: (pathMark ++ (path ++ closing ++ value)))

/-- Behind the inner braces stand the path up to the outer one, and then the value. -/
theorem element_path (direct : '}' ∉ path) (value : Text) :
    element (pathMark ++ (path ++ closing ++ value)) = (Text.piecesBy pathMark path, " to ".toList ++ value) := by
  have inside : Text.afterPrefix pathMark (pathMark ++ (path ++ closing ++ value)) = some (path ++ closing ++ value) :=
    rfl
  have closing_eq : path ++ closing ++ value = path ++ '}' :: (" to ".toList ++ value) := List.append_assoc ..
  rw [element, inside, Option.getD_some, closing_eq, Text.cutAt_append direct]
  rfl

/-- The piece after the second opening brace ends at the next one. -/
theorem pieces_writtenElement (opens : '{' ∉ base) (direct : '{' ∉ path) (value : Text) :
    (Text.pieces '{' (writtenElement base path value))[2]? =
      some (base ++ '}' :: (pathMark ++ (path ++ closing ++ Text.before '{' value))) := by
  have lead : '{' ∉ "set ".toList := by decide
  have line : writtenElement base path value =
      "set ".toList ++ '{' :: ([] ++ '{' :: (base ++ '}' :: (pathMark ++ (path ++ closing ++ value)))) := rfl
  have between : '{' ∉ base ++ '}' :: (pathMark ++ (path ++ closing)) := by
    simp only [List.mem_append, List.mem_cons, not_or]
    exact ⟨opens, by decide, by decide, direct, by decide⟩
  have kept := Text.before_append between value
  simp only [List.append_assoc, List.cons_append] at kept
  obtain ⟨rest, first⟩ := Text.pieces_eq_cons '{' (base ++ '}' :: (pathMark ++ (path ++ closing ++ value)))
  rw [line, Text.pieces_append lead, Text.pieces_append List.not_mem_nil, first, List.append_assoc, kept,
    List.append_assoc]
  rfl

theorem ofLine?_writtenElement (plain : '{' ∉ base ∧ '}' ∉ base) (single : ¬ pathMark <:+: base)
    (direct : '{' ∉ path ∧ '}' ∉ path) (value : Text) :
    ofLine? (writtenElement base path value) =
      some ⟨(variableOf base).1, (variableOf base).2.1, (variableOf base).2.2, Text.trim (Text.before '{' value),
        some (Text.piecesBy pathMark path)⟩ := by
  have form : elementForm? (writtenElement base path value) = some true := rfl
  have piece := pieces_writtenElement plain.1 direct.1 value
  have cut := Text.cutAt_append plain.2 (pathMark ++ (path ++ closing ++ Text.before '{' value))
  have whole : target base = (base, []) := by rw [target, Text.cutAtText_eq_none_iff.mpr single]
  have behind := element_path direct.2 (Text.before '{' value)
  have keyword := cutAtText_to (Text.before '{' value)
  have marked : Text.hasPart pathMark (writtenElement base path value) = true :=
    Text.hasPart_iff_infix.mpr ⟨opening ++ '{' :: base ++ ['}'], path ++ closing ++ value, by simp [writtenElement]⟩
  rw [ofLine?, form]
  simp only [Option.bind_eq_bind, Option.bind_some, if_true, piece, cut, whole, behind, keyword, marked,
    Text.trim_cons Text.isBlank_space]

/-- A name with a path is cut at its first path mark. -/
theorem target_append (single : ¬ pathMark <:+: base) (last : base.getLast? ≠ some ':') (path : Text) :
    target (base ++ pathMark ++ path) = (base, Text.piecesBy pathMark path) := by
  have cut : Text.cutAtText pathMark (base ++ pathMark ++ path) = some (base, path) := by
    rw [List.append_assoc]
    exact Text.cutAtText_doubled single last path
  rw [target, cut]

/-- The two forms of an assignment to an element make the same assignment, whatever the
    value is: its path has the segments that are written, and the sign before the base name
    decides what the variable is. -/
theorem element_forms_agree (plain : '{' ∉ base ∧ '}' ∉ base) (single : ¬ pathMark <:+: base)
    (last : base.getLast? ≠ some ':') (direct : '{' ∉ path ∧ '}' ∉ path) (value : Text) :
    ∃ a, ofLine? (writtenElement base path value) = some a ∧
      ofLine? (written (base ++ pathMark ++ path) value) = some a ∧
      a.path = some (Text.piecesBy pathMark path) ∧
      (∀ name, base = '_' :: name → a.name = name ∧ a.visibility = .local ∧ a.fromOption = false) ∧
      (∀ name, base = '@' :: name → a.name = name ∧ a.visibility = .global ∧ a.fromOption = true) ∧
      (base.head? ≠ some '_' → base.head? ≠ some '@' →
        a.name = base ∧ a.visibility = .global ∧ a.fromOption = false) := by
  refine ⟨_, ofLine?_writtenElement plain single direct value, ?_, rfl, ?_, ?_, fun shown own => ?_⟩
  · have joined : '{' ∉ base ++ pathMark ++ path ∧ '}' ∉ base ++ pathMark ++ path := by
      simp only [List.mem_append, not_or]
      exact ⟨⟨⟨plain.1, by decide⟩, direct.1⟩, ⟨plain.2, by decide⟩, direct.2⟩
    have marked : Text.hasPart pathMark (written (base ++ pathMark ++ path) value) = true :=
      Text.hasPart_iff_infix.mpr ((infix_written_iff _ value).mpr (.inl ⟨base, path, rfl⟩))
    rw [ofLine?_written joined, target_append single last, if_pos marked]
  · rintro name rfl
    exact ⟨rfl, rfl, rfl⟩
  · rintro name rfl
    exact ⟨rfl, rfl, rfl⟩
  · rw [variableOf_of_unsigned shown own]
    exact ⟨rfl, rfl, rfl⟩

/-- A base name has one of the signs or none, and behind a sign it may begin with the other.
    Segments may be empty or begin with a colon, and the value may have braces. -/
theorem element_forms_agree_odd_segments :
    (∃ a, ofLine? (writtenElement "_map".toList ":::::a to".toList "\x7by::z\x7d".toList) = some a ∧
      ofLine? (written "_map:::::::a to".toList "\x7by::z\x7d".toList) = some a ∧
      a.path = some [[], [], ":a to".toList] ∧
      a.name = "map".toList ∧ a.visibility = .local ∧ a.fromOption = false) ∧
    (∃ a, ofLine? (writtenElement "@_map".toList ":::::a to".toList "\x7by::z\x7d".toList) = some a ∧
      ofLine? (written "@_map:::::::a to".toList "\x7by::z\x7d".toList) = some a ∧
      a.path = some [[], [], ":a to".toList] ∧
      a.name = "_map".toList ∧ a.visibility = .global ∧ a.fromOption = true) ∧
    ∃ a, ofLine? (writtenElement "map".toList ":::::a to".toList "\x7by::z\x7d".toList) = some a ∧
      ofLine? (written "map:::::::a to".toList "\x7by::z\x7d".toList) = some a ∧
      a.path = some [[], [], ":a to".toList] ∧
      a.name = "map".toList ∧ a.visibility = .global ∧ a.fromOption = false := by
  have single : ∀ base ∈ ["_map".toList, "@_map".toList, "map".toList], ¬ pathMark <:+: base := fun base member =>
    Text.hasPart_iff_infix.not.mp (by revert base; decide)
  have direct : '{' ∉ ":::::a to".toList ∧ '}' ∉ ":::::a to".toList := by decide
  refine ⟨?_, ?_, ?_⟩
  · obtain ⟨a, inner, outer, path, hidden, -, -⟩ := element_forms_agree
      (by decide : '{' ∉ "_map".toList ∧ '}' ∉ "_map".toList) (single _ (by decide)) (by decide) direct
      "\x7by::z\x7d".toList
    exact ⟨a, inner, outer, path.trans (by decide), hidden _ rfl⟩
  · obtain ⟨a, inner, outer, path, -, option, -⟩ := element_forms_agree
      (by decide : '{' ∉ "@_map".toList ∧ '}' ∉ "@_map".toList) (single _ (by decide)) (by decide) direct
      "\x7by::z\x7d".toList
    exact ⟨a, inner, outer, path.trans (by decide), option _ rfl⟩
  · obtain ⟨a, inner, outer, path, -, -, own⟩ := element_forms_agree
      (by decide : '{' ∉ "map".toList ∧ '}' ∉ "map".toList) (single _ (by decide)) (by decide) direct
      "\x7by::z\x7d".toList
    exact ⟨a, inner, outer, path.trans (by decide), own (by decide) (by decide)⟩

end ScriptAtlas.Assignment
