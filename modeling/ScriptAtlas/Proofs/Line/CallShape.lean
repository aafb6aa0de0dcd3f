import Mathlib.Data.List.Basic
import ScriptAtlas.Proofs.Line.Classification
import ScriptAtlas.Proofs.Text.Parts

/-!
Lines that are calls. The scan finds a call exactly if the line can be written as one,
wherever the parenthesis stands that opens the arguments (`hasShape_iff`). The callee
may hold parentheses of its own, and the name of the called function ends at the first
of them; so the name of a call has no white space, the rest of the line goes from a
parenthesis to the last one, and only a line that opens with a parenthesis calls
something without a name (`Line.read_call`).
-/
namespace ScriptAtlas
namespace Call

variable {callee args line s : Text} {started : Bool}

/-- A line is written as a call of a callee with arguments. -/
structure Writes (callee args line : Text) : Prop where
  line_eq : line = callee ++ '(' :: (args ++ [')'])
  filled : callee ≠ []
  solid : ∀ c ∈ callee, isSpace c = false
  unbroken : ∀ c ∈ args, endsLine c = false

theorem isSpace_eq_false_iff {c : Char} : isSpace c = false ↔ c ∉ [' ', '\t', '\n', '\x0b', '\x0c', '\r'] := by
  simp [isSpace, and_assoc]

theorem endsLine_eq_false_iff {c : Char} : endsLine c = false ↔ c ∉ ['\n', '\r', '\u0085', '\u2028', '\u2029'] := by
  simp [endsLine, and_assoc]

/-! ### The scan -/

theorem closes_iff : closes s = true ↔ ∃ args, s = args ++ [')'] ∧ ∀ c ∈ args, endsLine c = false := by
  rcases List.eq_nil_or_concat' s with rfl | ⟨l, c, rfl⟩
  · simp [closes]
  · simp [closes]

/-- The rest of a line completes a call if a parenthesis opens its arguments and no white
    space stands before that, but something of the callee. -/
theorem completes_iff :
    completes started s = true ↔
      ∃ lead rest, s = lead ++ '(' :: rest ∧ (∀ c ∈ lead, isSpace c = false) ∧ (started = true ∨ lead ≠ []) ∧
        closes rest = true := by
  induction s generalizing started with
  | nil => simp [completes]
  | cons c s ih =>
    rw [completes, Text.exists_divided_cons_iff]
    by_cases space : isSpace c = true
    · have other : c ≠ '(' := by
        rintro rfl
        revert space
        decide
      simp [space, other]
    · simp [space, ih, and_assoc]

theorem hasShape_iff_writes : hasShape line = true ↔ ∃ callee args, Writes callee args line := by
  rw [hasShape, Bool.and_eq_true, completes_iff]
  constructor
  · rintro ⟨-, callee, rest, rfl, solid, begun, closed⟩
    obtain ⟨args, rfl, unbroken⟩ := closes_iff.mp closed
    exact ⟨callee, args, rfl, by simpa using begun, solid, unbroken⟩
  · rintro ⟨callee, args, rfl, filled, solid, unbroken⟩
    refine ⟨by simp [List.getLast?_append, List.getLast?_cons], callee, _, rfl, solid, Or.inr filled, ?_⟩
    exact closes_iff.mpr ⟨args, rfl, unbroken⟩

/-- A line has the shape of a call exactly if it is a callee, an opening parenthesis,
    arguments and a closing parenthesis, for some callee that is not empty and has no
    white space and some arguments that end no line. -/
theorem hasShape_iff (line : Text) :
    hasShape line = true ↔
      ∃ callee args, line = callee ++ "(".toList ++ args ++ ")".toList ∧ callee ≠ [] ∧
        (∀ c ∈ callee, c ∉ [' ', '\t', '\n', '\x0b', '\x0c', '\r']) ∧
        ∀ c ∈ args, c ∉ ['\n', '\r', '\u0085', '\u2028', '\u2029'] := by
  rw [hasShape_iff_writes]
  simp only [← isSpace_eq_false_iff, ← endsLine_eq_false_iff]
  constructor
  · rintro ⟨callee, args, rfl, filled, solid, unbroken⟩
    exact ⟨callee, args, by simp, filled, solid, unbroken⟩
  · rintro ⟨callee, args, rfl, filled, solid, unbroken⟩
    exact ⟨callee, args, by simp, filled, solid, unbroken⟩

/-! ### The name -/

namespace Writes

variable (writes : Writes callee args line)
include writes

/-- The name is what stands in the callee before its first parenthesis. -/
theorem name_eq : name line = Text.before '(' callee := by
  rw [writes.line_eq, name, Text.before_append_cons]

theorem solid_name : ∀ c ∈ name line, isSpace c = false := by
  intro c member
  rw [writes.name_eq] at member
  exact writes.solid c ((List.takeWhile_prefix _).subset member)

/-- The line goes on behind the name with a parenthesis and ends in another one. -/
theorem exists_text : ∃ text, line = name line ++ '(' :: (text ++ [')']) := by
  rw [writes.name_eq]
  by_cases opened : '(' ∈ callee
  · obtain ⟨l, r, whole, absent⟩ := List.eq_append_cons_of_mem opened
    refine ⟨r ++ '(' :: args, ?_⟩
    rw [writes.line_eq, whole, Text.before_append_cons, Text.before_eq_self absent]
    simp
  · refine ⟨args, ?_⟩
    rw [Text.before_eq_self opened, ← writes.line_eq]

theorem name_eq_nil_iff : name line = [] ↔ line.head? = some '(' := by
  obtain ⟨c, rest, first⟩ := List.exists_cons_of_ne_nil writes.filled
  rw [writes.name_eq, writes.line_eq, first, Text.before]
  by_cases opened : c = '(' <;> simp [opened]

end Writes
end Call

theorem Construct.call_of_kind {options : ParseOptions} {parent : Option Kind} {content : Text}
    (called : (ofContent options parent content).kind = .functionCall) :
    Call.hasShape content = true ∧ ofContent options parent content = .functionCall (Call.name content) := by
  have suits := suits_ofContent options parent content
  generalize ofContent options parent content = x at suits called
  cases suits with
  | call _ _ shape => exact ⟨shape, rfl⟩
  | keyword k => cases k <;> cases called
  | entry | options | statement | undefined => cases called

/-- A line that is a call is the name it gives, an opening parenthesis, some text and a
    closing parenthesis. The name has no white space, and it is what stands before the
    first parenthesis; so it is empty exactly if the line opens with one. -/
theorem Line.read_call (options : ParseOptions) (parent : Option Kind) (raw : Text)
    (called : (Line.read options parent raw).kind = .functionCall) :
    ∃ name text, (Line.read options parent raw).construct.name? = some name ∧
      (Line.read options parent raw).content = name ++ "(".toList ++ text ++ ")".toList ∧
      (∀ c ∈ name, c ∉ [' ', '\t', '\n', '\x0b', '\x0c', '\r']) ∧ '(' ∉ name ∧
      (name = [] ↔ (Line.read options parent raw).content.head? = some '(') := by
  obtain ⟨shape, construct⟩ := Construct.call_of_kind called
  obtain ⟨callee, args, writes⟩ := Call.hasShape_iff_writes.mp shape
  obtain ⟨text, whole⟩ := writes.exists_text
  refine ⟨Call.name (contentOf raw), text, ?_, ?_, ?_, Text.not_mem_before '(' _, writes.name_eq_nil_iff⟩
  · rw [Line.read, Line.ofContent, construct]
    rfl
  · exact whole.trans (by simp)
  · exact fun c member => Call.isSpace_eq_false_iff.mp (writes.solid_name c member)

/-- The callee holds parentheses, and the arguments are opened by the last one. -/
theorem Line.read_call_of_call :
    ∃ raw, (Line.read {} none raw).kind = .functionCall ∧
      ∃ name text, (Line.read {} none raw).construct.name? = some name ∧
        (Line.read {} none raw).content = name ++ "(".toList ++ text ++ ")".toList ∧
        (∀ c ∈ name, c ∉ [' ', '\t', '\n', '\x0b', '\x0c', '\r']) ∧ '(' ∉ name ∧
        (name = [] ↔ (Line.read {} none raw).content.head? = some '(') := by
  have called : (Line.read {} none "\ta(b)\u2028(c d) ".toList).kind = .functionCall := by decide +kernel
  exact ⟨_, called, Line.read_call {} none _ called⟩

/-- A line that opens with two parentheses calls a function without a name. -/
theorem Line.nameless_call :
    (Line.read {} none "((x)".toList).kind = .functionCall ∧
      (Line.read {} none "((x)".toList).construct.name? = some [] := by
  decide +kernel

end ScriptAtlas
