import ScriptAtlas.Options
import ScriptAtlas.Text.Blank
import ScriptAtlas.Text.Cut

/-!
The lines of a script and their depth. A script ends with at most one line
break that belongs to its last line; every other line break starts a new line.
The depth of a line is the width of its leading spaces and tabs, up to a limit.
-/
namespace ScriptAtlas

/-- The greatest depth of a line. -/
def depthLimit : Nat := Nat.pow 2 64 - 1

/-- Whether a character indents a line. -/
def indents (c : Char) : Bool := c == ' ' || c == '\t'

theorem indents_iff {c : Char} : indents c = true ↔ c = ' ' ∨ c = '\t' := by
  rw [indents, Bool.or_eq_true, beq_iff_eq, beq_iff_eq]

/-- The width of an indenting character. -/
def charWidth (tabWidth : Nat) (c : Char) : Nat := if c = '\t' then tabWidth else 1

/-- A depth increased by a width, up to the limit. -/
def deepened (depth width : Nat) : Nat := min depthLimit (depth + width)

/-- The depth of a line: the widths of its leading spaces and tabs, added one by one. -/
def depthOf (tabWidth : Nat) (line : Text) : Nat :=
  (line.takeWhile indents).foldl (fun depth c => deepened depth (charWidth tabWidth c)) 0

/-- The width of the leading spaces and tabs of a line, without a limit. -/
def indentWidth (tabWidth : Nat) (line : Text) : Nat :=
  (line.takeWhile indents).foldr (fun c width => charWidth tabWidth c + width) 0

theorem foldl_deepened (tabWidth : Nat) (lead : Text) (depth : Nat) (inside : depth ≤ depthLimit) :
    lead.foldl (fun depth c => deepened depth (charWidth tabWidth c)) depth =
      min depthLimit (depth + lead.foldr (fun c width => charWidth tabWidth c + width) 0) := by
  induction lead generalizing depth with
  | nil => rw [List.foldl_nil, List.foldr_nil, Nat.add_zero, Nat.min_eq_right inside]
  | cons c rest ih =>
    rw [List.foldl_cons, deepened, ih _ (Nat.min_le_left ..), List.foldr_cons]
    omega

/-- Stopping at the limit on the way gives the same as cutting the whole sum to the limit. -/
theorem depthOf_eq (tabWidth : Nat) (line : Text) :
    depthOf tabWidth line = min depthLimit (indentWidth tabWidth line) := by
  have whole := foldl_deepened tabWidth (line.takeWhile indents) 0 (Nat.zero_le _)
  rwa [Nat.zero_add] at whole

/-- Of the indentation a space is one wide, and a tab as wide as is set. -/
theorem foldr_charWidth (tabWidth : Nat) {lead : Text} (indented : ∀ c ∈ lead, c = ' ' ∨ c = '\t') :
    lead.foldr (fun c width => charWidth tabWidth c + width) 0 = lead.count ' ' + lead.count '\t' * tabWidth := by
  induction lead with
  | nil => rw [List.foldr_nil, List.count_nil, List.count_nil, Nat.zero_mul]
  | cons c lead ih =>
    obtain ⟨first, indented⟩ := List.forall_mem_cons.mp indented
    rw [List.foldr_cons, ih indented]
    rcases first with rfl | rfl
    · have width : charWidth tabWidth ' ' = 1 := if_neg (by decide)
      rw [width, List.count_cons_self, List.count_cons_of_ne (by decide)]
      omega
    · have width : charWidth tabWidth '\t' = tabWidth := if_pos rfl
      rw [width, List.count_cons_self, List.count_cons_of_ne (by decide), Nat.succ_mul]
      omega

/-- The depth of a line counts the spaces and the tabs before its content. -/
theorem depthOf_append (tabWidth : Nat) {lead rest : Text} (indented : ∀ c ∈ lead, c = ' ' ∨ c = '\t')
    (space : rest.head? ≠ some ' ') (tab : rest.head? ≠ some '\t') :
    depthOf tabWidth (lead ++ rest) = min depthLimit (lead.count ' ' + lead.count '\t' * tabWidth) := by
  have stop : rest.takeWhile indents = [] := by
    cases rest with
    | nil => rfl
    | cons c rest =>
      refine List.takeWhile_cons_of_neg fun indent => ?_
      rcases indents_iff.mp indent with rfl | rfl
      · exact space rfl
      · exact tab rfl
  have whole : (lead ++ rest).takeWhile indents = lead := by
    rw [List.takeWhile_append_of_pos fun c member => indents_iff.mpr (indented c member), stop, List.append_nil]
  rw [depthOf_eq, indentWidth, whole, foldr_charWidth tabWidth indented]

/-- Whether nothing but blank characters follows the indentation of a line. -/
def isBlankLine (line : Text) : Bool := (Text.trim (line.dropWhile indents)).isEmpty

theorem isBlank_of_indents {c : Char} (indent : indents c = true) : Text.isBlank c = true := by
  rcases indents_iff.mp indent with rfl | rfl
  · exact Text.isBlank_space
  · exact Text.isBlank_tab

/-- Indentation is blank, so a line is blank exactly if all its characters are. -/
theorem isBlankLine_eq (line : Text) : isBlankLine line = Text.allBlank line := by
  have lead : ∀ c ∈ line.takeWhile indents, Text.isBlank c = true := fun c member =>
    isBlank_of_indents (List.all_eq_true.mp List.all_takeWhile c member)
  have parts : Text.allBlank (line.takeWhile indents ++ line.dropWhile indents) =
      Text.allBlank (line.dropWhile indents) := by
    rw [Text.allBlank, List.all_append, List.all_eq_true.mpr lead, Bool.true_and, Text.allBlank]
  rw [List.takeWhile_append_dropWhile] at parts
  rw [isBlankLine, parts, Bool.eq_iff_iff, List.isEmpty_iff, Text.trim_eq_nil_iff]

/-- The lines of a script. The empty text has none. -/
def sourceLines (text : Text) : List Text :=
  if text.isEmpty then [] else Text.pieces '\n' (Text.dropFinal '\n' text)

theorem sourceLines_nil : sourceLines [] = [] := rfl

/-- A text that ends in a line break leaves the lines after it as they are. -/
theorem sourceLines_append {text : Text} (broken : text.getLast? = some '\n') (more : Text) :
    sourceLines (text ++ more) = sourceLines text ++ sourceLines more := by
  obtain ⟨lines, rfl⟩ := List.getLast?_eq_some_iff.mp broken
  have whole : (lines ++ ['\n']).isEmpty = false := by simp
  by_cases none : more = []
  · rw [none, List.append_nil, sourceLines_nil, List.append_nil]
  · have filled : (lines ++ ['\n'] ++ more).isEmpty = false := by simp
    have some : more.isEmpty = false := List.isEmpty_eq_false_iff.mpr none
    rw [sourceLines, sourceLines, sourceLines, whole, filled, some, Text.dropFinal_append _ _ none,
      Text.dropFinal_concat, List.append_assoc, List.singleton_append]
    exact Text.pieces_append_cons '\n' lines (Text.dropFinal '\n' more)

/-- A line as it is read: byte order marks at the beginning of a script do not
    belong to its first line. -/
def readable (number : Nat) (raw : Text) : Text :=
  if number = 1 then raw.dropWhile (· == '\uFEFF') else raw

/-- Only the first line of a script can lose byte order marks. -/
theorem readable_of_later {number : Nat} (later : 1 < number) (raw : Text) : readable number raw = raw :=
  if_neg (Nat.ne_of_gt later)

/-- A line that begins with no byte order mark is read as it stands. -/
theorem readable_of_unmarked {raw : Text} (unmarked : raw.head? ≠ some '\uFEFF') (number : Nat) :
    readable number raw = raw := by
  rw [readable]
  split
  · cases raw with
    | nil => rfl
    | cons c rest =>
      have other : ¬ (c == '\uFEFF') = true := fun same => unmarked (congrArg some (beq_iff_eq.mp same))
      exact List.dropWhile_cons_of_neg other
  · rfl

/-- The first line is read from behind all the byte order marks it begins with. -/
theorem readable_first (marks : Nat) {raw : Text} (unmarked : raw.head? ≠ some '\uFEFF') :
    readable 1 (List.replicate marks '\uFEFF' ++ raw) = raw := by
  induction marks with
  | zero => exact readable_of_unmarked unmarked 1
  | succ marks ih => exact ih

end ScriptAtlas
