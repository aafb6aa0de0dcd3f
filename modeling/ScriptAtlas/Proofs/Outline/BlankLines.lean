import ScriptAtlas.Proofs.Outline.Entries
import ScriptAtlas.Symbol.Basic

/-!
Blank lines in trees and outlines. A line that opens with a keyword has the kind
of that keyword and any other line with content is at least a statement, so only
blank lines are left undefined (`kind_ofContent_eq_undefined_iff`). A blank line
directly under an options block is the exception: where the lines there count as
entries it is an entry, and the outline shows it (`undefined_iff_blank_and_shown_iff`).
-/
namespace ScriptAtlas

/-! ### What a line without content is -/

/-- A keyword decides what a line is. -/
theorem Keyword.kind_construct_ne_undefined (k : Keyword) (content : Text) :
    (k.construct content).kind ≠ .undefined := by
  cases k <;> exact fun same => by cases same

/-- No keyword is written with no characters. -/
theorem Keyword.ofLower?_nil : ofLower? [] = none := by decide

namespace Construct

/-- A line without content is the entry of an options block or undefined. -/
theorem ofContent_nil (options : ParseOptions) (parent : Option Kind) :
    ofContent options parent [] =
      if parent = some .options ∧ options.classifyOptions then .option else .undefined := by
  have plain : ∀ nested, ofPlain nested [] [] = .undefined := by decide
  rw [ofContent, show Text.lowercase [] = [] from rfl, Keyword.ofLower?_nil, plain]

theorem kind_ofPlain_ne_undefined {nested : Bool} {content lower : Text} (some : content ≠ []) :
    (ofPlain nested content lower).kind ≠ .undefined := by
  have full : content.isEmpty = false := List.isEmpty_eq_false_iff.mpr some
  rw [ofPlain, full]
  cases Call.hasShape content <;> cases nested <;> cases optionsHead.isPrefixOf lower <;>
    exact fun same => by cases same

/-- A line is left undefined exactly if it has no content, unless it counts as
    the entry of an options block. -/
theorem kind_ofContent_eq_undefined_iff {options : ParseOptions} {parent : Option Kind} {content : Text} :
    (ofContent options parent content).kind = .undefined ↔
      content = [] ∧ ¬ (options.classifyOptions = true ∧ parent = some .options) := by
  rw [and_comm (a := options.classifyOptions = true)]
  by_cases empty : content = []
  · rw [empty, ofContent_nil]
    by_cases entry : parent = some .options ∧ options.classifyOptions = true
    · rw [if_pos entry]
      exact ⟨(fun same => by cases same), fun ⟨_, other⟩ => absurd entry other⟩
    · rw [if_neg entry]
      exact ⟨fun _ => ⟨rfl, entry⟩, fun _ => rfl⟩
  · refine ⟨fun undefined => absurd undefined ?_, fun ⟨blank, _⟩ => absurd blank empty⟩
    rw [ofContent]
    split
    · exact fun same => by cases same
    · cases Keyword.ofLower? (Text.lowercase content) with
      | some k => exact k.kind_construct_ne_undefined content
      | none => exact kind_ofPlain_ne_undefined empty

end Construct

/-! ### Blank lines of a script -/

section
variable {options : ParseOptions} {text : Text} {n : Node}

theorem construct_of_mem_parse (member : n ∈ (parse options text).nodes) :
    n.construct = Construct.ofContent options ((parse options text).parentKind n) n.content := by
  obtain ⟨i, found⟩ := List.getElem?_of_mem member
  obtain ⟨raw, -, -, -, line⟩ := parse_line found
  rw [Line.read, Line.ofContent] at line
  calc n.construct = n.toLine.construct := rfl
    _ = Construct.ofContent options ((parse options text).parentKind n) n.toLine.content := by rw [line]
    _ = _ := rfl

/-- A blank line gives structure exactly if it counts as the entry of an options block. -/
theorem isShown_iff_of_isBlank (member : n ∈ (parse options text).nodes) (blank : n.isBlank = true) :
    (parse options text).isShown n = true ↔
      options.classifyOptions = true ∧ (parse options text).isInOptions n = true := by
  have content : n.content = [] := List.isEmpty_iff.mp blank
  have made := construct_of_mem_parse member
  rw [content, Construct.ofContent_nil] at made
  rw [Tree.isInOptions_iff, and_comm, Tree.isShown, Node.kind, made]
  split
  · rename_i entry
    exact ⟨fun _ => entry, fun _ => rfl⟩
  · rename_i plain
    exact ⟨(fun shown => by cases shown), fun entry => absurd entry plain⟩

end

/-- A line of a script is left undefined exactly if it is blank and does not
    count as the entry of an options block, and a blank line has an item in the
    outline exactly if it does. -/
theorem undefined_iff_blank_and_shown_iff (options : ParseOptions) (text : Text) :
    ∀ n ∈ (parse options text).nodes,
      (n.kind = .undefined ↔ n.isBlank = true ∧
        ¬ (options.classifyOptions = true ∧ (parse options text).isInOptions n = true)) ∧
      (n.isBlank = true →
        ((∃ item ∈ Outline.preorderAll (Outline.ofTree (parse options text)), item.line = n.number) ↔
          options.classifyOptions = true ∧ (parse options text).isInOptions n = true)) := by
  intro n member
  constructor
  · rw [Node.kind, construct_of_mem_parse member, Construct.kind_ofContent_eq_undefined_iff,
      Node.isBlank, List.isEmpty_iff, Tree.isInOptions_iff]
  · intro blank
    rw [exists_item_iff member, isShown_iff_of_isBlank member blank]

/-- An options block with a blank line between its entries. -/
def spacedEntries : Text := "options:\n    a: b\n\n    c: d\n".toList

/-- As long as entries do not count as such, the blank line between them is
    undefined and not shown. -/
theorem undefined_iff_blank_and_shown_iff_spacedEntries :
    ∃ n ∈ (parse {} spacedEntries).nodes,
      (parse {} spacedEntries).isInOptions n = true ∧ n.isBlank = true ∧ n.kind = .undefined ∧
      ¬ ∃ item ∈ Outline.preorderAll (Outline.ofTree (parse {} spacedEntries)), item.line = n.number := by
  have found : ∃ n, (parse {} spacedEntries).nodes[2]? = some n ∧ n.isBlank = true ∧
      (parse {} spacedEntries).isInOptions n = true := ⟨_, rfl, rfl, by decide +kernel⟩
  obtain ⟨n, found, blank, nested⟩ := found
  have member := List.mem_of_getElem? found
  obtain ⟨kind, shown⟩ := undefined_iff_blank_and_shown_iff {} spacedEntries n member
  refine ⟨n, member, nested, blank, kind.mpr ⟨blank, ?_⟩, fun item => ?_⟩
  · rintro ⟨on, -⟩
    cases on
  · cases ((shown blank).mp item).1

/-- Where entries count as such, so does the blank line between them, and the
    outline shows it. -/
theorem exists_blank_entry_shown :
    ∃ n ∈ (parse { classifyOptions := true } spacedEntries).nodes, n.isBlank = true ∧ n.kind ≠ .undefined ∧
      ∃ item ∈ Outline.preorderAll (Outline.ofTree (parse { classifyOptions := true } spacedEntries)),
        item.line = n.number := by
  have found : ∃ n, (parse { classifyOptions := true } spacedEntries).nodes[2]? = some n ∧ n.isBlank = true ∧
      n.kind = .option ∧ (parse { classifyOptions := true } spacedEntries).isShown n = true :=
    ⟨_, rfl, rfl, rfl, by decide +kernel⟩
  obtain ⟨n, found, blank, kind, shown⟩ := found
  have member := List.mem_of_getElem? found
  refine ⟨n, member, blank, ?_, (exists_item_iff member).mpr shown⟩
  rw [kind]
  decide

end ScriptAtlas
