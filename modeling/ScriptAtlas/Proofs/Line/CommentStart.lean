import ScriptAtlas.Line.Comment
import ScriptAtlas.Text.Cut

/-!
Where the comment of a line starts. A mark is in quotes if a quotation is open in
front of it, and whether one is open depends on the number of quotation marks alone
(`isOpen`). The scan passes everything up to the first mark outside quotes and keeps
it as the code of the line (`splits_splitFrom`), so no mark is left in the code at
which a comment could start (`comment_from_first_mark`).
-/
namespace ScriptAtlas.Comment

variable {inQuotes : Bool} {s : Text}

/-- Whether a quotation is open behind a text, where `inQuotes` tells whether one is
    open at its beginning. -/
def isOpen (inQuotes : Bool) (s : Text) : Bool := inQuotes != (s.count '"' % 2 == 1)

/-- Every mark of a text is in quotes. -/
def AllQuoted (inQuotes : Bool) (s : Text) : Prop := ∀ l r, s = l ++ '#' :: r → isOpen inQuotes l = true

/-- The code and the comment of a line. Without a mark outside quotes all of it is
    code, otherwise the comment starts at the first of them. -/
inductive Splits (inQuotes : Bool) : Text → Text → Option Text → Prop
  | whole {s : Text} (quoted : AllQuoted inQuotes s) : Splits inQuotes s s none
  | atMark {code rest : Text} (quoted : AllQuoted inQuotes code) (outside : isOpen inQuotes code = false) :
      Splits inQuotes (code ++ '#' :: rest) code (some ('#' :: rest))

/-! ### Quotations -/

@[simp] theorem isOpen_nil (inQuotes : Bool) : isOpen inQuotes [] = inQuotes := by
  simp [isOpen]

@[simp] theorem isOpen_cons (inQuotes : Bool) (c : Char) (s : Text) :
    isOpen inQuotes (c :: s) = isOpen (inQuotes != (c == '"')) s := by
  unfold isOpen
  by_cases quote : c = '"'
  · subst quote
    rcases Nat.mod_two_eq_zero_or_one (s.count '"') with even | odd
    · simp [Nat.add_mod, even]
    · simp [Nat.add_mod, odd]
  · simp [quote, beq_false_of_ne quote]

/-- At the beginning of a line no quotation is open. -/
theorem isOpen_false_iff : isOpen false s = true ↔ s.count '"' % 2 = 1 := by
  simp [isOpen]

theorem isOpen_false_eq_false_iff : isOpen false s = false ↔ s.count '"' % 2 = 0 := by
  rw [← Bool.not_eq_true, isOpen_false_iff]
  omega

theorem allQuoted_nil (inQuotes : Bool) : AllQuoted inQuotes [] := by
  simp [AllQuoted]

theorem allQuoted_cons_iff {c : Char} :
    AllQuoted inQuotes (c :: s) ↔ ¬ (c = '#' ∧ inQuotes = false) ∧ AllQuoted (inQuotes != (c == '"')) s := by
  rw [AllQuoted, Text.forall_divided_cons_iff]
  simp [AllQuoted]

/-- In a text without marks none is outside quotes. -/
theorem allQuoted_of_unmarked (unmarked : '#' ∉ s) : AllQuoted inQuotes s := by
  intro l r whole
  subst whole
  simp at unmarked

/-! ### The scan -/

/-- The scan passes marks in quotes and knows behind them whether a quotation is open. -/
theorem splitFrom_append (quoted : AllQuoted inQuotes s) (t : Text) :
    splitFrom inQuotes (s ++ t) =
      (s ++ (splitFrom (isOpen inQuotes s) t).1, (splitFrom (isOpen inQuotes s) t).2) := by
  induction s generalizing inQuotes with
  | nil => simp
  | cons c s ih =>
    obtain ⟨passed, later⟩ := allQuoted_cons_iff.mp quoted
    rw [List.cons_append, splitFrom, if_neg passed, ih later, isOpen_cons]
    rfl

theorem exists_first_mark (marked : ¬ AllQuoted inQuotes s) :
    ∃ l r, s = l ++ '#' :: r ∧ AllQuoted inQuotes l ∧ isOpen inQuotes l = false := by
  induction s generalizing inQuotes with
  | nil => exact absurd (allQuoted_nil inQuotes) marked
  | cons c s ih =>
    by_cases here : c = '#' ∧ inQuotes = false
    · obtain ⟨rfl, rfl⟩ := here
      exact ⟨[], s, rfl, allQuoted_nil false, isOpen_nil false⟩
    · rw [allQuoted_cons_iff, and_iff_right here] at marked
      obtain ⟨l, r, rfl, quoted, outside⟩ := ih marked
      exact ⟨c :: l, r, rfl, allQuoted_cons_iff.mpr ⟨here, quoted⟩, by rw [isOpen_cons, outside]⟩

namespace Splits

variable {code : Text} {comment : Option Text}

theorem allQuoted (splits : Splits inQuotes s code comment) : AllQuoted inQuotes code := by
  cases splits with
  | whole quoted => exact quoted
  | atMark quoted => exact quoted

theorem append_eq (splits : Splits inQuotes s code comment) : code ++ comment.getD [] = s := by
  cases splits with
  | whole => exact List.append_nil _
  | atMark => rfl

theorem splitFrom_eq (splits : Splits inQuotes s code comment) : splitFrom inQuotes s = (code, comment) := by
  cases splits with
  | whole quoted => simpa [splitFrom] using splitFrom_append quoted []
  | atMark quoted outside => simp [splitFrom_append quoted, outside, splitFrom]

end Splits

/-- The scan gives the code and the comment of a line. -/
theorem splits_splitFrom (inQuotes : Bool) (s : Text) :
    Splits inQuotes s (splitFrom inQuotes s).1 (splitFrom inQuotes s).2 := by
  by_cases quoted : AllQuoted inQuotes s
  · rw [(Splits.whole quoted).splitFrom_eq]
    exact .whole quoted
  · obtain ⟨l, r, rfl, quoted, outside⟩ := exists_first_mark quoted
    rw [(Splits.atMark quoted outside).splitFrom_eq]
    exact .atMark quoted outside

/-! ### The comment of a line -/

theorem splits_line (s : Text) : Splits false s (code s) (ofLine s) := splits_splitFrom false s

theorem ofLine_eq_none_iff : ofLine s = none ↔ AllQuoted false s := by
  constructor
  · intro absent
    have splits := splits_line s
    rw [absent] at splits
    generalize code s = before at splits
    cases splits with
    | whole quoted => exact quoted
  · intro quoted
    rw [ofLine, (Splits.whole quoted).splitFrom_eq]

theorem ofLine_eq_some_iff {comment : Text} :
    ofLine s = some comment ↔
      ∃ before rest, s = before ++ '#' :: rest ∧ comment = '#' :: rest ∧ isOpen false before = false ∧
        AllQuoted false before := by
  constructor
  · intro found
    have splits := splits_line s
    rw [found] at splits
    generalize code s = before at splits
    cases splits with
    | atMark quoted outside => exact ⟨before, _, rfl, rfl, outside, quoted⟩
  · rintro ⟨before, rest, rfl, rfl, outside, quoted⟩
    rw [ofLine, (Splits.atMark quoted outside).splitFrom_eq]

/-- A comment is what follows from a place in its line. -/
theorem suffix_of_ofLine {comment : Text} (found : ofLine s = some comment) : comment <:+ s := by
  obtain ⟨before, rest, rfl, rfl, -⟩ := ofLine_eq_some_iff.mp found
  exact List.suffix_append before _

theorem code_of_unmarked (unmarked : '#' ∉ s) : code s = s := by
  rw [code, (Splits.whole (allQuoted_of_unmarked unmarked)).splitFrom_eq]

/-- The code of a line is all code. -/
theorem splitFrom_code (s : Text) : splitFrom false (code s) = (code s, none) :=
  (Splits.whole (splits_line s).allQuoted).splitFrom_eq

/-- The comment of a line starts at its first mark that an even number of quotation
    marks precedes, and is missing exactly if an odd number precedes each. It follows
    on the code of the line, which has no comment and is its own code. -/
theorem comment_from_first_mark (line : Text) :
    (∀ comment, ofLine line = some comment ↔
      ∃ before rest, line = before ++ '#' :: rest ∧ comment = '#' :: rest ∧ before.count '"' % 2 = 0 ∧
        ∀ l r, before = l ++ '#' :: r → l.count '"' % 2 = 1) ∧
    (ofLine line = none ↔ ∀ l r, line = l ++ '#' :: r → l.count '"' % 2 = 1) ∧
    code line ++ (ofLine line).getD [] = line ∧
    ofLine (code line) = none ∧ code (code line) = code line := by
  refine ⟨fun comment => ?_, ?_, (splits_line line).append_eq, ?_, ?_⟩
  · rw [ofLine_eq_some_iff]
    simp only [AllQuoted, isOpen_false_iff, isOpen_false_eq_false_iff]
  · rw [ofLine_eq_none_iff]
    simp only [AllQuoted, isOpen_false_iff]
  · rw [ofLine, splitFrom_code]
  · rw [code, splitFrom_code]

/-- A quotation mark closes the quotation whatever stands in front of it. -/
example : ofLine "send \"a\\\"#b\"".toList = some "#b\"".toList := by decide

end ScriptAtlas.Comment
