import ScriptAtlas.Line.Assignment

/-!
The parts of an assignment `set {name} to value`. The name has no brace, so the
brace that opens it is the first of the line; the value may hold anything. The
line is taken apart at every opening brace, so what stands before the value is
found whatever the value is (`ofLine?_written`), but of the value no more is kept
than what stands before its first opening brace (`exists_ofLine?_written`).
-/
namespace ScriptAtlas.Assignment

/-- What stands before the name of a variable. -/
def opening : Text := "set \x7b".toList

/-- What stands between the name of a variable and its value. -/
def closing : Text := "\x7d to ".toList

/-- The line that assigns a value to a variable. -/
def written (name value : Text) : Text := opening ++ name ++ closing ++ value

variable {name : Text}

theorem written_eq (name value : Text) :
    written name value = "set ".toList ++ '{' :: (name ++ '}' :: (" to ".toList ++ value)) := by
  have opening_eq : opening = "set ".toList ++ ['{'] := rfl
  have closing_eq : closing = '}' :: " to ".toList := rfl
  rw [written, opening_eq, closing_eq, List.append_assoc, List.append_assoc, List.append_assoc,
    List.singleton_append, List.cons_append]

/-- A brace does not follow the brace that opens the name. -/
theorem elementForm?_written (opens : '{' ∉ name) (value : Text) :
    elementForm? (written name value) = some false := by
  have dropped : ∀ rest, Text.dropBytes 3 ("set ".toList ++ rest) = some (' ' :: rest) := fun _ => rfl
  have trimmed : ∀ rest, Text.trimStart (' ' :: '{' :: rest) = '{' :: rest := fun _ => rfl
  rw [written_eq, elementForm?, dropped, Option.map_some, trimmed]
  cases name with
  | nil => rfl
  | cons c name =>
    have apart : '{' ≠ c := (List.ne_and_not_mem_of_not_mem_cons opens).1
    simp [List.isPrefixOf, apart]

/-- The piece after the first opening brace ends at the next one. -/
theorem pieces_written (opens : '{' ∉ name) (value : Text) :
    (Text.pieces '{' (written name value))[1]? =
      some (name ++ '}' :: (" to ".toList ++ Text.before '{' value)) := by
  have before : '{' ∉ "set ".toList := by decide
  have between : '{' ∉ name ++ '}' :: " to ".toList := by
    rw [List.mem_append, not_or]
    exact ⟨opens, by decide⟩
  obtain ⟨rest, first⟩ := Text.pieces_eq_cons '{' (name ++ '}' :: (" to ".toList ++ value))
  have kept : Text.before '{' (name ++ '}' :: (" to ".toList ++ value)) =
      name ++ '}' :: (" to ".toList ++ Text.before '{' value) := by
    have split := Text.before_append between value
    rwa [List.append_assoc, List.append_assoc] at split
  rw [written_eq, Text.pieces_append before, first, kept]
  rfl

/-- The keyword `to` stands right after the name. -/
theorem cutAtText_to (value : Text) :
    Text.cutAtText "to".toList (" to ".toList ++ value) = some ([' '], ' ' :: value) := rfl

/-- The parts that stand before the value do not depend on it, and the value ends
    at its first opening brace. -/
theorem ofLine?_written (plain : '{' ∉ name ∧ '}' ∉ name) (value : Text) :
    ofLine? (written name value) =
      some ⟨(variableOf (target name).1).1, (variableOf (target name).1).2.1, (variableOf (target name).1).2.2,
        Text.trim (Text.before '{' value),
        if Text.hasPart pathMark (written name value) then some (target name).2 else none⟩ := by
  -- The line is split at every opening brace before the keyword is looked for.
  have blank : Text.isBlank ' ' = true := Text.isBlank_space
  have piece := pieces_written plain.1 value
  have cut := Text.cutAt_append plain.2 (" to ".toList ++ Text.before '{' value)
  have keyword := cutAtText_to (Text.before '{' value)
  rw [ofLine?, elementForm?_written plain.1]
  simp only [Option.bind_eq_bind, Option.bind_some, Bool.false_eq_true, if_false, piece, cut, keyword,
    Text.trim_cons blank]

/-- A value is cut at its first opening brace exactly if it has one. -/
theorem trim_before_eq_iff {value : Text} : Text.trim (Text.before '{' value) = Text.trim value ↔ '{' ∉ value := by
  have visible : Text.isBlank '{' = false := by decide
  constructor
  · intro same member
    rw [← Text.mem_trim visible, ← same, Text.mem_trim visible] at member
    exact Text.not_mem_before '{' value member
  · intro absent
    rw [Text.before_eq_self absent]

/-- An assignment to a name without braces can be taken apart whatever its value
    is. The value taken out is all of it, trimmed, exactly if it has no opening
    brace; otherwise it is what stands before the first one. -/
theorem exists_ofLine?_written (plain : '{' ∉ name ∧ '}' ∉ name) (value : Text) :
    ∃ a, ofLine? (written name value) = some a ∧ a.value = Text.trim (Text.before '{' value) ∧
      (a.value = Text.trim value ↔ '{' ∉ value) :=
  ⟨_, ofLine?_written plain value, rfl, trim_before_eq_iff⟩

/-- A value may hold the keyword `to` and closing braces. -/
theorem exists_ofLine?_written_closing_brace :
    ∃ a, ofLine? (written "_total".toList " \"go to \x7d bed\" ".toList) = some a ∧
      a.value = "\"go to \x7d bed\"".toList := by
  have plain : '{' ∉ "_total".toList ∧ '}' ∉ "_total".toList := by decide
  obtain ⟨a, made, cut, -⟩ := exists_ofLine?_written plain " \"go to \x7d bed\" ".toList
  exact ⟨a, made, cut.trans (by decide)⟩

/-- A variable in braces is lost from a value. -/
theorem exists_ofLine?_written_variable_lost :
    ∃ a, ofLine? (written "x".toList "\x7by\x7d".toList) = some a ∧
      a.value = [] ∧ a.value ≠ Text.trim "\x7by\x7d".toList :=
  ⟨_, ofLine?_written (by decide) _, by decide, by decide⟩

end ScriptAtlas.Assignment
