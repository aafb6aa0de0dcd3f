import ScriptAtlas.Proofs.Line.TrailingComment
import ScriptAtlas.Proofs.Outline.Entries
import ScriptAtlas.Proofs.Script.Ancestry
import ScriptAtlas.Proofs.Script.LineByLine

/-!
Scripts with a comment behind one of their lines. A comment behind a line that is not
blank leaves the depth of the line as it is, and the content of the line stands before
the comment (`lineShape_append`, `exists_trails`). So the two scripts differ in the
content of that line only (`SameBut`, `sameBut_commented`), and all lines stand in the
same places. Whether a line heads an options block depends on its content and on the
line that it belongs to (`kind_eq_options_iff`), so the heads are the same ones but for
the line itself and what stands directly under it (`SameBut.heads_iff`).
-/
namespace ScriptAtlas

/-! ### One line with a comment -/

section
variable {line more : Text}

theorem readable_append {number : Nat} (some : readable number line ≠ []) (more : Text) :
    readable number (line ++ more) = readable number line ++ more := by
  rw [readable] at some ⊢
  rw [readable]
  split at some
  · rename_i first
    rw [if_pos first, if_pos first, List.dropWhile_append, if_neg (List.isEmpty_iff.not.mpr some)]
  · rename_i later
    rw [if_neg later, if_neg later]

/-- Byte order marks are all that a line can lose at its beginning. -/
theorem count_readable {c : Char} (other : c ≠ '\uFEFF') (number : Nat) (line : Text) :
    (readable number line).count c = line.count c := by
  rw [readable]
  split
  · have marks : (line.takeWhile (· == '\uFEFF')).count c = 0 := List.count_eq_zero.mpr fun member =>
      other (beq_iff_eq.mp (List.all_eq_true.mp List.all_takeWhile c member))
    conv_rhs => rw [← List.takeWhile_append_dropWhile (p := (· == '\uFEFF')) (l := line), List.count_append, marks,
      Nat.zero_add]
  · rfl

/-- What follows the first character of a line that is not blank does not change its shape. -/
theorem lineShape_append (options : ParseOptions) (shown : Text.allBlank line = false) (more : Text) :
    lineShape options (line ++ more) = lineShape options line := by
  have visible : Text.allBlank (line ++ more) = false := by
    rw [Text.allBlank, List.all_append, ← Text.allBlank, shown, Bool.false_and]
  have lead : (line ++ more).takeWhile indents = line.takeWhile indents := by
    rw [List.takeWhile_append, if_neg]
    intro whole
    have all := List.all_takeWhile (l := line) (p := indents)
    rw [(List.takeWhile_prefix indents).eq_of_length whole, List.all_eq_true] at all
    rw [Text.allBlank, List.all_eq_true.mpr fun c member => isBlank_of_indents (all c member)] at shown
    cases shown
  rw [lineShape, lineShape, visible, shown, lineDepth, lineDepth, indentWidth, lead, indentWidth]

/-- Carriage returns do not belong to the content of a line. -/
theorem contentOf_append_returns (line : Text) (returns : ∀ c ∈ more, c = '\r') : contentOf (line ++ more) = contentOf line := by
  have gone : Text.without ['\r', '\t'] more = [] := by
    refine List.filter_eq_nil_iff.mpr fun c member => ?_
    rw [returns c member]
    decide
  rw [contentOf, Text.without, List.filter_append, ← Text.without, ← Text.without, gone, List.append_nil, contentOf]

theorem count_contentOf (line : Text) : (contentOf line).count '"' = line.count '"' := by
  rw [contentOf, Text.count_trim (by decide), Text.without, List.count_filter (by decide)]

/-- The content of a line that is not blank stands before its comment. -/
theorem exists_trails (shown : Text.allBlank line = false) (unmarked : '#' ∉ line) (even : line.count '"' % 2 = 0)
    (more : Text) :
    ∃ tail, contentOf (line ++ ' ' :: '#' :: more) = contentOf line ++ tail ∧ Trails (contentOf line) tail := by
  have filled : contentOf line ≠ [] := by
    rw [ne_eq, ← List.isEmpty_iff, isEmpty_contentOf, shown]
    exact Bool.false_ne_true
  have start : Text.trimStart (Text.without ['\r', '\t'] line) ≠ [] := fun none => by
    rw [contentOf, Text.trim, none] at filled
    exact filled rfl
  obtain ⟨gap, blank, whole⟩ := Text.exists_trimEnd_append (Text.trimStart (Text.without ['\r', '\t'] line))
  rw [← Text.trim, ← contentOf] at whole
  have spaced : Text.trimStart (Text.without ['\r', '\t'] line ++ [' ']) = contentOf line ++ (gap ++ [' ']) := by
    rw [Text.trimStart, List.dropWhile_append, ← Text.trimStart, if_neg (List.isEmpty_iff.not.mpr start),
      ← List.append_assoc, ← whole]
  have kept : Text.without ['\r', '\t'] (line ++ ' ' :: '#' :: more) =
      Text.without ['\r', '\t'] line ++ [' '] ++ '#' :: Text.without ['\r', '\t'] more := by
    simp [Text.without]
  refine ⟨gap ++ [' '] ++ '#' :: Text.trimEnd (Text.without ['\r', '\t'] more), ?_, filled, ?_, ?_, ?_⟩
  · rw [contentOf, kept, Text.trim, Text.trimStart_append_cons (by decide), spaced,
      Text.trimEnd_append_cons (by decide), List.append_assoc]
  · exact fun member => unmarked (List.mem_filter.mp (Text.mem_of_mem_trim member)).1
  · rw [count_contentOf, even]
  · refine ⟨gap ++ [' '], _, rfl, by simp, ?_⟩
    rw [Text.allBlank, List.all_append, ← Text.allBlank, blank]
    rfl

end

/-! ### Two scripts that differ in the content of one line -/

/-- The lines of two scripts have the same shapes, and the same contents but for one line. -/
structure SameBut (options : ParseOptions) (text text' : Text) (pos : Nat) : Prop where
  shapes : (readLines text).map (lineShape options) = (readLines text').map (lineShape options)
  contents : ∀ i ≠ pos, (readLines text)[i]?.map contentOf = (readLines text')[i]?.map contentOf

theorem content_of_get? {options : ParseOptions} {text : Text} {i : Nat} {n : Node} (found : (parse options text).get? i = some n) :
    (readLines text)[i]?.map contentOf = some n.content := by
  obtain ⟨raw, line, -, -, read⟩ := parse_line found
  rw [readLines, List.getElem?_mapIdx, line]
  exact congrArg (some ·.content) read.symm

theorem number_of_get? {options : ParseOptions} {text : Text} {i : Nat} {n : Node}
    (found : (parse options text).get? i = some n) : n.number = i + 1 := by
  obtain ⟨-, -, -, number, -⟩ := parse_line found
  exact number

theorem exists_node_of_line (options : ParseOptions) {text raw : Text} {i : Nat} (line : (sourceLines text)[i]? = some raw) :
    ∃ n, (parse options text).get? i = some n ∧ n.content = contentOf (readable (i + 1) raw) := by
  have within := (List.getElem?_eq_some_iff.mp line).1
  rw [← length_parse options] at within
  have found : (parse options text).get? i = some _ := List.getElem?_eq_getElem within
  have content := content_of_get? found
  rw [readLines, List.getElem?_mapIdx, line] at content
  exact ⟨_, found, (Option.some.inj content).symm⟩

/-- A line heads an options block if it begins like one, has not the shape of a call and
    does not stand directly under another head. -/
theorem kind_eq_options_iff {options : ParseOptions} {text : Text} {n : Node} (member : n ∈ (parse options text).nodes) :
    n.kind = .options ↔ Text.BeginsWith optionsHead n.content ∧ Call.hasShape n.content = false ∧
      (parse options text).parentKind n ≠ some .options := by
  rw [Node.kind, construct_of_mem_parse member, Construct.kind_ofContent_eq_options_iff, Construct.HeadsOptions]
  constructor
  · rintro ⟨-, shapeless, outside, begins⟩
    exact ⟨begins, shapeless, outside⟩
  · rintro ⟨begins, shapeless, outside⟩
    exact ⟨Construct.plain_of_options begins, shapeless, outside, begins⟩

namespace SameBut

variable {options : ParseOptions} {text text' : Text} {pos i : Nat} {n m : Node}

variable (same : SameBut options text text' pos)
include same

theorem size_eq : (parse options text).size = (parse options text').size := by
  have sizes := congrArg List.length same.shapes
  rwa [List.length_map, List.length_map, length_readLines options, length_readLines options] at sizes

theorem exists_twin (found : (parse options text).get? i = some n) : ∃ m, (parse options text').get? i = some m :=
  ⟨_, List.getElem?_eq_getElem (Nat.lt_of_lt_of_le (Tree.get?_lt found) (Nat.le_of_eq same.size_eq))⟩

variable (found : (parse options text).get? i = some n) (found' : (parse options text').get? i = some m)
include found found'

theorem content_eq (apart : i ≠ pos) : n.content = m.content := by
  have contents := same.contents i apart
  rw [content_of_get? found, content_of_get? found'] at contents
  exact Option.some.inj contents

theorem parent_eq : n.parent = m.parent := parent_congr same.shapes found found'

/-- A line stands under an options block in both scripts or in none, if the line that it
    belongs to is a head in both or in none. -/
theorem nested_iff (above : ∀ p, n.parent = some p → ∀ q q', (parse options text).get? p = some q →
      (parse options text').get? p = some q' → (q.kind = .options ↔ q'.kind = .options)) :
    (parse options text).parentKind n = some .options ↔ (parse options text').parentKind m = some .options := by
  cases up : n.parent with
  | none => simp [Tree.parentKind, ← same.parent_eq found found', up]
  | some p =>
    obtain ⟨q, at_p⟩ := (linked_parse options text).exists_parent found up
    obtain ⟨q', at_p'⟩ := same.exists_twin at_p
    have up' : m.parent = some p := by rw [← same.parent_eq found found', up]
    rw [Tree.parentKind_of_parent up at_p, Tree.parentKind_of_parent up' at_p', Option.some.injEq, Option.some.injEq]
    exact above p up q q' at_p at_p'

/-- The heads of the options blocks are the same lines, apart from the line that differs,
    if it is a head in both scripts or in none whenever a line directly under it might be one. -/
theorem heads_iff (apart : i ≠ pos)
    (steady : ∀ j k, j ≤ i → (parse options text).get? j = some k → k.parent = some pos →
      Text.BeginsWith optionsHead k.content → ∀ q q', (parse options text).get? pos = some q →
        (parse options text').get? pos = some q' → (q.kind = .options ↔ q'.kind = .options)) :
    n.kind = .options ↔ m.kind = .options := by
  induction i using Nat.strongRecOn generalizing n m with
  | ind i ih =>
    rw [kind_eq_options_iff (List.mem_of_getElem? found), kind_eq_options_iff (List.mem_of_getElem? found'),
      ← same.content_eq found found' apart]
    refine and_congr_right fun begins => and_congr_right fun _ => not_congr ?_
    refine same.nested_iff found found' fun p up q q' at_p at_p' => ?_
    have earlier := (linked_parse options text).earlier i n p found up
    by_cases here : p = pos
    · subst here
      exact steady i n (Nat.le_refl i) found up begins q q' at_p at_p'
    · exact ih p earlier at_p at_p' here fun j k before => steady j k (Nat.le_trans before (Nat.le_of_lt earlier))

end SameBut

/-! ### A line within a text -/

/-- A line with a comment behind it. -/
def commented (line comment : Text) : Text := line ++ " # ".toList ++ comment

section
variable {options : ParseOptions} {before line after comment : Text}

/-- A line of a text with the rest of its own that stands before its line break. -/
theorem sourceLines_within (starts : ∀ c ∈ before.getLast?, c = '\n') (whole : '\n' ∉ line) (filled : line ≠ [])
    (after : Text) :
    sourceLines (before ++ line ++ after) =
      sourceLines before ++ (line ++ Text.before '\n' after) ::
        sourceLines (((Text.cutAt '\n' after).map (·.2)).getD []) := by
  have first : sourceLines (before ++ (line ++ after)) = sourceLines before ++ sourceLines (line ++ after) := by
    cases last : before.getLast? with
    | none => rw [List.getLast?_eq_none_iff.mp last, List.nil_append, sourceLines_nil, List.nil_append]
    | some c => exact sourceLines_append (by rw [last, starts c last]) _
  rw [List.append_assoc, first]
  congr 1
  cases cut : Text.cutAt '\n' after with
  | none =>
    have unbroken := Text.cutAt_eq_none_iff.mp cut
    rw [Text.before_eq_self unbroken, sourceLines_of_unbroken]
    · rfl
    · simp [filled]
    · exact fun member => (List.mem_append.mp member).elim whole unbroken
  | some parts =>
    obtain ⟨absent, rfl⟩ := Text.cutAt_eq_some_iff.mp cut
    rw [Text.before_eq_of_cutAt cut, ← List.append_assoc, sourceLines_append_break]
    · rfl
    · exact fun member => (List.mem_append.mp member).elim whole absent

theorem sameBut_of_lines {text text' raw raw' : Text} {first rest : List Text}
    (lines : sourceLines text = first ++ raw :: rest) (lines' : sourceLines text' = first ++ raw' :: rest)
    (shape : lineShape options (readable (first.length + 1) raw) = lineShape options (readable (first.length + 1) raw')) :
    SameBut options text text' first.length := by
  refine ⟨?_, fun i apart => ?_⟩
  · rw [map_readLines, map_readLines, lines, lines', List.mapIdx_append, List.mapIdx_append, List.mapIdx_cons,
      List.mapIdx_cons, Nat.zero_add, shape]
  · have elsewhere : (first ++ raw :: rest)[i]? = (first ++ raw' :: rest)[i]? := by
      rcases Nat.lt_or_gt_of_ne apart with earlier | later
      · rw [List.getElem?_append_left earlier, List.getElem?_append_left earlier]
      · obtain ⟨j, rfl⟩ := Nat.exists_eq_add_of_lt later
        have place : first.length + j + 1 - first.length = j + 1 := by omega
        rw [List.getElem?_append_right (by omega), List.getElem?_append_right (by omega), place,
          List.getElem?_cons_succ, List.getElem?_cons_succ]
    rw [readLines, readLines, List.getElem?_mapIdx, List.getElem?_mapIdx, lines, lines', elsewhere]

variable (starts : ∀ c ∈ before.getLast?, c = '\n') (whole : '\n' ∉ line)
  (ends : ∀ c ∈ Text.before '\n' after, c = '\r')
  (shown : Text.allBlank (readable ((sourceLines before).length + 1) line) = false) (short : '\n' ∉ comment)
include starts whole ends shown short

/-- The line is read with carriage returns behind it at most, or with its comment. -/
theorem exists_lines_commented :
    ∃ raw raw' rest returns more,
      sourceLines (before ++ line ++ after) = sourceLines before ++ raw :: rest ∧
      sourceLines (before ++ commented line comment ++ after) = sourceLines before ++ raw' :: rest ∧
      readable ((sourceLines before).length + 1) raw = readable ((sourceLines before).length + 1) line ++ returns ∧
      readable ((sourceLines before).length + 1) raw' =
        readable ((sourceLines before).length + 1) line ++ ' ' :: '#' :: more ∧
      ∀ c ∈ returns, c = '\r' := by
  have filled : readable ((sourceLines before).length + 1) line ≠ [] := fun none => by
    rw [none] at shown
    cases shown
  have some : line ≠ [] := by
    rintro rfl
    refine filled ?_
    rw [readable]
    split <;> rfl
  have longer : commented line comment ≠ [] := by simp [commented]
  have unbroken : '\n' ∉ commented line comment := by simp [commented, whole, short]
  have form : commented line comment ++ Text.before '\n' after =
      line ++ ' ' :: '#' :: (' ' :: comment ++ Text.before '\n' after) := by simp [commented]
  exact ⟨_, _, _, _, _, sourceLines_within starts whole some after, sourceLines_within starts unbroken longer after,
    readable_append filled _, (congrArg _ form).trans (readable_append filled _), ends⟩

/-- The comment changes the content of its line only. -/
theorem sameBut_commented (options : ParseOptions) :
    SameBut options (before ++ line ++ after) (before ++ commented line comment ++ after) (sourceLines before).length := by
  obtain ⟨raw, raw', rest, returns, more, lines, lines', read, read', -⟩ :=
    exists_lines_commented starts whole ends shown short
  refine sameBut_of_lines lines lines' ?_
  rw [read, read', lineShape_append options shown, lineShape_append options shown]

/-- The content of the line stands before its comment. -/
theorem exists_commented (options : ParseOptions) (unmarked : '#' ∉ line) (even : line.count '"' % 2 = 0) :
    ∃ n m tail, (parse options (before ++ line ++ after)).get? (sourceLines before).length = some n ∧
      (parse options (before ++ commented line comment ++ after)).get? (sourceLines before).length = some m ∧
      m.content = n.content ++ tail ∧ Trails n.content tail := by
  obtain ⟨raw, raw', rest, returns, more, lines, lines', read, read', blank⟩ :=
    exists_lines_commented starts whole ends shown short
  have first : (sourceLines before ++ raw :: rest)[(sourceLines before).length]? = some raw := by simp
  have first' : (sourceLines before ++ raw' :: rest)[(sourceLines before).length]? = some raw' := by simp
  obtain ⟨n, found, content⟩ := exists_node_of_line options (lines ▸ first)
  obtain ⟨m, found', content'⟩ := exists_node_of_line options (lines' ▸ first')
  rw [read, contentOf_append_returns _ blank] at content
  have hashes := count_readable (show '#' ≠ '\uFEFF' by decide) ((sourceLines before).length + 1) line
  have quotes := count_readable (show '"' ≠ '\uFEFF' by decide) ((sourceLines before).length + 1) line
  rw [List.count_eq_zero.mpr unmarked] at hashes
  rw [← quotes] at even
  obtain ⟨tail, behind, trails⟩ := exists_trails shown (List.count_eq_zero.mp hashes) even more
  refine ⟨n, m, tail, found, found', ?_, content ▸ trails⟩
  rw [content', read', behind, content]

end
end ScriptAtlas
