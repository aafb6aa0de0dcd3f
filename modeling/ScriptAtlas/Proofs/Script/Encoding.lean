import ScriptAtlas.Proofs.Script.LineByLine

/-!
Other ways to write a script down. Spaces may stand for the tabs that indent a line
(`spaced`), a byte order mark may stand in front of a script, and its line breaks may
have carriage returns (`withReturns`). All of these leave the depths and the contents
of the lines as they are, and so the tree, up to the lines as they stand in the
source (`parse_spaced`, `parse_encoded`).
-/
namespace ScriptAtlas

variable {options : ParseOptions} {c : Char}

/-! ### Lines with one more character -/

theorem takeWhile_concat_of_neg {p : Char → Bool} (stops : p c = false) (s : Text) :
    (s ++ [c]).takeWhile p = s.takeWhile p := by
  induction s with
  | nil => simp [stops]
  | cons x s ih => simp [List.takeWhile_cons, ih]

theorem dropWhile_concat_of_neg {p : Char → Bool} (stops : p c = false) (s : Text) :
    (s ++ [c]).dropWhile p = s.dropWhile p ++ [c] := by
  induction s with
  | nil => simp [stops]
  | cons x s ih => by_cases goes : p x = true <;> simp [goes, ih]

/-- A line is read with what ends it, unless that is a byte order mark itself. -/
theorem readable_concat (unmarked : c ≠ '\uFEFF') (number : Nat) (line : Text) :
    readable number (line ++ [c]) = readable number line ++ [c] := by
  rw [readable, readable]
  split
  · exact dropWhile_concat_of_neg (p := (· == '\uFEFF')) (beq_false_of_ne unmarked) line
  · rfl

theorem indentWidth_tab (tabWidth : Nat) (line : Text) :
    indentWidth tabWidth ('\t' :: line) = tabWidth + indentWidth tabWidth line := rfl

theorem indentWidth_space (tabWidth : Nat) (line : Text) :
    indentWidth tabWidth (' ' :: line) = 1 + indentWidth tabWidth line := rfl

theorem contentOf_cons_of_blank (blank : Text.isBlank c = true) (line : Text) : contentOf (c :: line) = contentOf line := by
  rw [contentOf, Text.without, List.filter_cons]
  split
  · rw [Text.trim_cons blank, contentOf, Text.without]
  · rw [contentOf, Text.without]

/-! ### Spaces for tabs -/

/-- The line with spaces for the tabs among its leading spaces and tabs. -/
def spacedLine (tabWidth : Nat) (line : Text) : Text :=
  (line.takeWhile indents).flatMap (fun c => if c = '\t' then List.replicate tabWidth ' ' else [c]) ++
    line.dropWhile indents

/-- The byte order marks that a line loses when it is read. -/
def marksOf (number : Nat) (raw : Text) : Text := if number = 1 then raw.takeWhile (· == '\uFEFF') else []

/-- The script with spaces for the tabs that indent its lines. Byte order marks at
    its beginning stay where they are. -/
def spaced (tabWidth : Nat) (text : Text) : Text :=
  ((wholeLines text).mapIdx fun i line => marksOf (i + 1) line ++ spacedLine tabWidth (readable (i + 1) line)).flatten

theorem marksOf_append_readable (number : Nat) (raw : Text) : marksOf number raw ++ readable number raw = raw := by
  rw [marksOf, readable]
  split
  · exact List.takeWhile_append_dropWhile
  · rfl

variable {tabWidth : Nat}

theorem spacedLine_tab (tabWidth : Nat) (line : Text) :
    spacedLine tabWidth ('\t' :: line) = List.replicate tabWidth ' ' ++ spacedLine tabWidth line := by
  simp [spacedLine, indents]

theorem spacedLine_space (tabWidth : Nat) (line : Text) :
    spacedLine tabWidth (' ' :: line) = ' ' :: spacedLine tabWidth line := by
  simp [spacedLine, indents]

theorem spacedLine_of_not_indents (stops : indents c = false) (line : Text) :
    spacedLine tabWidth (c :: line) = c :: line := by
  simp [spacedLine, stops]

/-- A line begins with a tab, or with a space, or with a character that does not
    indent it, or it is empty. -/
theorem indent_induction {P : Text → Prop} (none : P []) (tab : ∀ line, P line → P ('\t' :: line))
    (space : ∀ line, P line → P (' ' :: line)) (other : ∀ c line, indents c = false → P (c :: line))
    (line : Text) : P line := by
  induction line with
  | nil => exact none
  | cons c line ih =>
    cases indent : indents c with
    | false => exact other c line indent
    | true =>
      rcases indents_iff.mp indent with rfl | rfl
      · exact space line ih
      · exact tab line ih

theorem indentWidth_replicate (n : Nat) (line : Text) :
    indentWidth tabWidth (List.replicate n ' ' ++ line) = n + indentWidth tabWidth line := by
  induction n with
  | zero => simp
  | succ n ih =>
    rw [List.replicate_succ, List.cons_append, indentWidth_space, ih]
    omega

theorem contentOf_replicate (n : Nat) (line : Text) : contentOf (List.replicate n ' ' ++ line) = contentOf line := by
  induction n with
  | zero => simp
  | succ n ih => rw [List.replicate_succ, List.cons_append, contentOf_cons_of_blank Text.isBlank_space, ih]

theorem indentWidth_spacedLine (tabWidth : Nat) (line : Text) :
    indentWidth tabWidth (spacedLine tabWidth line) = indentWidth tabWidth line := by
  induction line using indent_induction with
  | none => rfl
  | tab line ih => rw [spacedLine_tab, indentWidth_replicate, ih, indentWidth_tab]
  | space line ih => rw [spacedLine_space, indentWidth_space, ih, indentWidth_space]
  | other c line stops => rw [spacedLine_of_not_indents stops]

theorem contentOf_spacedLine (tabWidth : Nat) (line : Text) :
    contentOf (spacedLine tabWidth line) = contentOf line := by
  induction line using indent_induction with
  | none => rfl
  | tab line ih => rw [spacedLine_tab, contentOf_replicate, ih, contentOf_cons_of_blank Text.isBlank_tab]
  | space line ih =>
    rw [spacedLine_space, contentOf_cons_of_blank Text.isBlank_space, ih, contentOf_cons_of_blank Text.isBlank_space]
  | other c line stops => rw [spacedLine_of_not_indents stops]

/-- Spaces for tabs change neither the depth nor the content of a line. The depth is
    the whole width cut to the limit, so it does not matter on which way it is reached. -/
theorem appearance_spacedLine (options : ParseOptions) (line : Text) :
    appearance options (spacedLine options.tabWidth line) = appearance options line := by
  rw [appearance, lineDepth, indentWidth_spacedLine, contentOf_spacedLine, appearance, lineDepth]

/-- Where a tab has a width, spaces stand for it, so a line stays as it is up to
    spaces and tabs at its beginning. -/
theorem head?_spacedLine (wide : 1 ≤ tabWidth) (line : Text) :
    (spacedLine tabWidth line).head? = line.head? ∨ (spacedLine tabWidth line).head? = some ' ' := by
  obtain ⟨n, rfl⟩ := Nat.exists_eq_add_of_le' wide
  cases line using indent_induction with
  | none => exact Or.inl rfl
  | tab line => rw [spacedLine_tab]; exact Or.inr rfl
  | space line => rw [spacedLine_space]; exact Or.inr rfl
  | other c line stops => rw [spacedLine_of_not_indents stops]; exact Or.inl rfl

theorem spacedLine_ne_nil (wide : 1 ≤ tabWidth) {line : Text} (some : line ≠ []) : spacedLine tabWidth line ≠ [] := by
  intro empty
  rcases head?_spacedLine wide line with same | space
  · rw [empty] at same
    exact some (List.head?_eq_none_iff.mp same.symm)
  · rw [empty] at space
    cases space

theorem not_mem_spacedLine {line : Text} (unbroken : '\n' ∉ line) : '\n' ∉ spacedLine tabWidth line := by
  induction line using indent_induction with
  | none => exact unbroken
  | tab line ih => simp_all [spacedLine_tab]
  | space line ih => simp_all [spacedLine_space]
  | other c line stops => rwa [spacedLine_of_not_indents stops]

theorem spacedLine_concat (stops : indents c = false) (line : Text) :
    spacedLine tabWidth (line ++ [c]) = spacedLine tabWidth line ++ [c] := by
  rw [spacedLine, takeWhile_concat_of_neg stops, dropWhile_concat_of_neg stops, ← List.append_assoc, ← spacedLine]

/-- The lines with spaces for tabs are read as the lines with tabs, with spaces for these. -/
theorem readable_spaced (wide : 1 ≤ tabWidth) (number : Nat) (raw : Text) :
    readable number (marksOf number raw ++ spacedLine tabWidth (readable number raw)) =
      spacedLine tabWidth (readable number raw) := by
  rw [marksOf, readable, readable]
  split
  · have marks : ∀ c ∈ raw.takeWhile (· == '\uFEFF'), (c == '\uFEFF') = true := fun c member =>
      List.all_eq_true.mp List.all_takeWhile c member
    have unmarked : (spacedLine tabWidth (raw.dropWhile (· == '\uFEFF'))).head? ≠ some '\uFEFF' := by
      intro first
      rcases head?_spacedLine wide (raw.dropWhile (· == '\uFEFF')) with same | space
      · have other := List.head?_dropWhile_not (· == '\uFEFF') raw
        rw [← same, first] at other
        simp at other
      · rw [first] at space
        cases space
    have read := readable_of_unmarked unmarked 1
    rw [readable, if_pos rfl] at read
    rw [List.dropWhile_append_of_pos marks, read]
  · rfl

theorem readLines_spaced (wide : 1 ≤ tabWidth) (text : Text) :
    readLines (spaced tabWidth text) = (readLines text).map (spacedLine tabWidth) := by
  have lines : sourceLines (spaced tabWidth text) = (sourceLines text).mapIdx fun i line =>
      marksOf (i + 1) line ++ spacedLine tabWidth (readable (i + 1) line) := by
    refine sourceLines_edited (fun i line => ?_) (fun i line some empty => ?_) (fun i line unbroken member => ?_) text
    · have marks : marksOf (i + 1) (line ++ ['\n']) = marksOf (i + 1) line := by
        rw [marksOf, marksOf, takeWhile_concat_of_neg (by decide)]
      rw [marks, readable_concat (by decide), spacedLine_concat (by decide), List.append_assoc]
    · obtain ⟨unmarked, blank⟩ := List.append_eq_nil_iff.mp empty
      have whole := marksOf_append_readable (i + 1) line
      rw [unmarked, List.nil_append] at whole
      rw [whole] at blank
      exact spacedLine_ne_nil wide some blank
    · rw [← marksOf_append_readable (i + 1) line, List.mem_append, not_or] at unbroken
      rcases List.mem_append.mp member with marked | read
      · exact unbroken.1 marked
      · exact not_mem_spacedLine unbroken.2 read
  rw [readLines, lines, List.mapIdx_mapIdx, map_readLines]
  congr 1
  funext i raw
  exact readable_spaced wide (i + 1) raw

/-- Spaces may stand for the tabs that indent the lines of a script, as many as a tab
    is wide: nothing of its tree changes but the lines as they stand in the source. -/
theorem parse_spaced {options : ParseOptions} (wide : 1 ≤ options.tabWidth) (text : Text) :
    (parse options (spaced options.tabWidth text)).withoutRaw = (parse options text).withoutRaw := by
  refine withoutRaw_parse_congr ?_
  have same : appearance options ∘ spacedLine options.tabWidth = appearance options :=
    funext (appearance_spacedLine options)
  rw [readLines_spaced wide, List.map_map, same]

/-- Two tabs of the greatest width are as deep as the spaces in their place. -/
theorem parse_spaced_at_limit :
    ∃ (options : ParseOptions) (text : Text), 1 ≤ options.tabWidth ∧
      (parse options text).nodes.map (·.depth) = [depthLimit, depthLimit, 1] ∧
      (parse options (spaced options.tabWidth text)).withoutRaw = (parse options text).withoutRaw := by
  let options : ParseOptions := { tabWidth := depthLimit }
  have wide : 1 ≤ options.tabWidth := by decide
  exact ⟨options, "\uFEFF \tloop 3 times:\n\t\twait\n x\ty".toList, wide, by decide +kernel, parse_spaced wide _⟩

/-- Only leading tabs give way to spaces, behind byte order marks on the first line alone. -/
example : spaced 2 "\uFEFF \ta\tb\n\t\t\n\uFEFF\tc".toList = "\uFEFF   a\tb\n    \n\uFEFF\tc".toList := by decide +kernel

/-! ### Byte order marks and carriage returns -/

/-- A byte order mark in front of a script does not belong to any of its lines. -/
theorem readLines_marked {text : Text} (some : text ≠ []) : readLines ('\uFEFF' :: text) = readLines text := by
  have first : ∀ line : Text, readable 1 ('\uFEFF' :: line) = readable 1 line := fun line => rfl
  have apart : '\n' ≠ '\uFEFF' := by decide
  rw [readLines, readLines]
  induction text using lines_induction with
  | none => exact absurd rfl some
  | last line filled unbroken =>
    have marked : '\n' ∉ '\uFEFF' :: line := List.not_mem_cons_of_ne_of_not_mem apart unbroken
    rw [sourceLines_of_unbroken filled unbroken, sourceLines_of_unbroken (List.cons_ne_nil _ _) marked,
      List.mapIdx_cons, List.mapIdx_cons, first]
  | next line rest unbroken =>
    have marked : '\n' ∉ '\uFEFF' :: line := List.not_mem_cons_of_ne_of_not_mem apart unbroken
    rw [← List.cons_append, sourceLines_append_break unbroken, sourceLines_append_break marked, List.mapIdx_cons,
      List.mapIdx_cons, first]

/-- The script with a carriage return before each line break. -/
def withReturns (text : Text) : Text := text.flatMap fun c => if c = '\n' then ['\r', '\n'] else [c]

theorem withReturns_of_unbroken {line : Text} (unbroken : '\n' ∉ line) : withReturns line = line := by
  induction line with
  | nil => rfl
  | cons c line ih =>
    obtain ⟨apart, unbroken⟩ := List.ne_and_not_mem_of_not_mem_cons unbroken
    have rest := ih unbroken
    rw [withReturns] at rest
    simp [withReturns, apart.symm, rest]

theorem withReturns_append_break {line : Text} (unbroken : '\n' ∉ line) (rest : Text) :
    withReturns (line ++ '\n' :: rest) = (line ++ ['\r']) ++ '\n' :: withReturns rest := by
  have whole := withReturns_of_unbroken unbroken
  rw [withReturns] at whole
  rw [withReturns, List.flatMap_append, whole, List.flatMap_cons, if_pos rfl, withReturns]
  simp

/-- What does not look at a carriage return at the end of a line sees the lines
    without the returns. -/
theorem mapIdx_sourceLines_withReturns {β : Type} {f : Nat → Text → β}
    (overlooks : ∀ i line, f i (line ++ ['\r']) = f i line) (text : Text) :
    (sourceLines (withReturns text)).mapIdx f = (sourceLines text).mapIdx f := by
  induction text using lines_induction generalizing f with
  | none => rfl
  | last line some unbroken => rw [withReturns_of_unbroken unbroken]
  | next line rest unbroken ih =>
    have returned : '\n' ∉ line ++ ['\r'] := by simp [unbroken]
    rw [withReturns_append_break unbroken, sourceLines_append_break returned, sourceLines_append_break unbroken,
      List.mapIdx_cons, List.mapIdx_cons, overlooks, ih fun i => overlooks (i + 1)]

/-- A carriage return at the end of a line changes neither its depth nor its content. -/
theorem appearance_concat_return (options : ParseOptions) (line : Text) :
    appearance options (line ++ ['\r']) = appearance options line := by
  have content : contentOf (line ++ ['\r']) = contentOf line := by
    simp [contentOf, Text.without, List.filter_append]
  rw [appearance, lineDepth, indentWidth, takeWhile_concat_of_neg (by decide), content, appearance, lineDepth,
    indentWidth]

/-- The encoding of a script does not matter: a byte order mark in front of it and
    carriage returns before its line breaks change nothing of its tree but the lines
    as they stand in the source. -/
theorem parse_encoded (options : ParseOptions) {text : Text} (some : text ≠ []) :
    (parse options ('\uFEFF' :: text)).withoutRaw = (parse options text).withoutRaw ∧
    (parse options (withReturns text)).withoutRaw = (parse options text).withoutRaw := by
  constructor
  · refine withoutRaw_parse_congr ?_
    rw [readLines_marked some]
  · refine withoutRaw_parse_congr ?_
    rw [map_readLines, map_readLines]
    refine mapIdx_sourceLines_withReturns (fun i line => ?_) text
    rw [readable_concat (by decide), appearance_concat_return]

/-- A script with a blank line, a carriage return of its own and byte order marks. -/
theorem parse_encoded_marked_and_blank :
    ∃ text : Text, text ≠ [] ∧ withReturns text = "\uFEFFon join:\r\n \r\n\tstop it\r\r\n\uFEFF".toList ∧
      (parse {} ('\uFEFF' :: text)).withoutRaw = (parse {} text).withoutRaw ∧
      (parse {} (withReturns text)).withoutRaw = (parse {} text).withoutRaw := by
  let text := "\uFEFFon join:\n \n\tstop it\r\n\uFEFF".toList
  have some : text ≠ [] := by decide
  exact ⟨text, some, by decide, parse_encoded {} some⟩

end ScriptAtlas
