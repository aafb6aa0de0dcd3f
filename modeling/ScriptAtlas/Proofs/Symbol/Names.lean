import ScriptAtlas.Proofs.Line.VariableName
import ScriptAtlas.Proofs.Symbol.Declarations
import ScriptAtlas.Proofs.Text.Erasure

/-!
The names of symbols. What a line declares by its keyword takes its name from the
line as it stands, so a name can be missing and can begin or end with white space;
only option keys and the names of functions are trimmed. Which lines give a name is
told by `Symbol.Named`, and which give one without blank ends by `Symbol.Tidy`, both in
terms of the characters of the line (`symbol_name_tidy_iff`).
-/
namespace ScriptAtlas

section
variable {content : Text}

/-- The name of a function is what stands between the keyword and the parameters. -/
theorem Signature.name_of_ofLine? {signature : Signature} (begins : Keyword.Begins .function content)
    (signed : Signature.ofLine? content = some signature) :
    signature.name = Text.trim (Text.before '(' (content.drop 9)) := by
  have begins := begins.beginsWith rfl
  have cut : Text.cutAt ' ' content = some (content.take 8, content.drop 9) :=
    begins.cutAt_of_mark rfl (by decide) (by decide) (by decide)
  obtain ⟨apart, whole⟩ := Text.cutAt_eq_some_iff.mp cut
  have closed : '(' ∉ content.take 8 := begins.not_mem_take (by decide) (by decide) (by decide)
  have head : Text.before '(' content = content.take 8 ++ ' ' :: Text.before '(' (content.drop 9) := by
    conv_lhs => rw [whole, Text.before_append closed, Text.before, List.takeWhile_cons_of_pos (by decide)]
    rfl
  rw [ofLine?] at signed
  split at signed
  · obtain ⟨⟨start, rest⟩, opened, made⟩ := Option.map_eq_some_iff.mp signed
    rw [← made]
    show nameOf start = _
    rw [← Text.before_eq_of_cutAt opened, head, nameOf, Text.cutAt_append apart]
    rfl
  · cases signed

/-- The second word of a command is what follows the keyword up to the next space. -/
theorem Keyword.secondWord_of_begins (begins : Text.BeginsWith "command ".toList content) :
    secondWord content = Text.before ' ' (content.drop 8) := by
  have cut : Text.cutAt ' ' content = some (content.take 7, content.drop 8) :=
    begins.cutAt_of_mark rfl (by decide) (by decide) (by decide)
  obtain ⟨apart, whole⟩ := Text.cutAt_eq_some_iff.mp cut
  obtain ⟨more, first⟩ := Text.pieces_eq_cons ' ' (content.drop 8)
  have split : Text.pieces ' ' content = content.take 7 :: Text.before ' ' (content.drop 8) :: more := by
    conv_lhs => rw [whole, Text.pieces_append apart, first]
  rw [secondWord, split]
  rfl

end

namespace Symbol

/-- Whether a line gives a name to the symbol of some kind that it declares. A character
    of a function that is not blank stands before the parameters, a command has more than
    slashes and colons before the next space, and the line of an event is not, apart from
    its colons, the keyword some number of times over. -/
def Named (content : Text) : SymbolKind → Prop
  | .function => ∃ c ∈ (content.drop 9).takeWhile (· != '('), Text.isBlank c = false
  | .command => ∃ c ∈ (content.drop 8).takeWhile (· != ' '), c ∉ ['/', ':']
  | .event => ∀ times, content.filter (· != ':') ≠ (List.replicate times "on ".toList).flatten
  | .variable | .option => True

/-- Whether a line gives a name without blank ends to the symbol of some kind. Every blank
    character before the next space of a command stands between characters of the name.
    In the line of an event, apart from its colons, none follows the keyword and its
    repetitions at the beginning, and none but the last character of the keyword precedes
    its repetitions at the end. In an assignment none follows the opening braces and the
    sign of an option, and none precedes the first closing brace or path mark. -/
def Tidy (content : Text) : SymbolKind → Prop
  | .function | .option => True
  | .command => ∀ l c r, (content.drop 8).takeWhile (· != ' ') = l ++ c :: r → Text.isBlank c = true →
      (∃ d ∈ l, d ∉ ['/', ':']) ∧ ∃ d ∈ r, d ∉ ['/', ':']
  | .event => ∀ l c r, content.filter (· != ':') = l ++ c :: r → Text.isBlank c = true →
      (∀ times, l ≠ (List.replicate times "on ".toList).flatten) ∧
        ("on ".toList <:+ l ++ [c] ∨ ∀ times, r ≠ (List.replicate times "on ".toList).flatten)
  | .variable => ∀ l c r, content.drop 5 = l ++ c :: r → Text.isBlank c = true →
      l ∉ [[], ['{'], ['@'], ['{', '@']] ∧
        ('}' ∈ l ∨ "::".toList <:+: l ∨ r.head? ≠ some '}' ∧ ¬ "::".toList <+: r)

variable {content : Text} {number : Nat} {s : Symbol} {n : Node}

theorem function_named_tidy_iff {signature : Signature} (begins : Keyword.Begins .function content)
    (signed : Signature.ofLine? content = some signature) :
    (signature.name ≠ [] ↔ Named content .function) ∧ Text.trim signature.name = signature.name := by
  rw [Signature.name_of_ofLine? begins signed]
  refine ⟨?_, Text.trim_trim _⟩
  rw [ne_eq, Text.trim_eq_nil_iff, Text.allBlank, List.all_eq_true]
  simp only [not_forall, Bool.not_eq_true, exists_prop]
  rfl

theorem command_named_tidy_iff (begins : Keyword.Begins .command content) :
    (Text.without ['/', ':'] (Keyword.secondWord content) ≠ [] ↔ Named content .command) ∧
      (Text.HasShownEnds (Text.without ['/', ':'] (Keyword.secondWord content)) ↔ Tidy content .command) := by
  rw [Keyword.secondWord_of_begins (begins.beginsWith rfl)]
  exact ⟨Text.without_ne_nil_iff, Text.hasShownEnds_without_iff (by decide)⟩

theorem event_named_tidy_iff :
    (Text.erase "on ".toList (Text.without [':'] content) ≠ [] ↔ Named content .event) ∧
      (Text.HasShownEnds (Text.erase "on ".toList (Text.without [':'] content)) ↔ Tidy content .event) := by
  rw [Text.without_singleton]
  refine ⟨?_, Text.hasShownEnds_erase_iff (by decide) (by decide) (by decide)⟩
  rw [ne_eq, Text.erase_eq_nil_iff (by decide), not_exists]
  rfl

theorem variable_tidy_iff {a : Assignment} (begins : Keyword.Begins .set content)
    (assigned : Assignment.ofLine? content = some a) (visible : a.visibility = .global) (named : a.name ≠ []) :
    Text.HasShownEnds a.name ↔ Tidy content .variable := by
  rw [Text.hasShownEnds_iff]
  constructor
  · intro ends l c r split blank
    obtain ⟨first, last⟩ := ends c blank
    rw [ne_eq, Assignment.head?_name_iff begins assigned visible named blank] at first
    rw [ne_eq, Assignment.getLast?_name_iff begins assigned visible named blank] at last
    refine ⟨fun leading => first ⟨l, r, split, leading⟩, ?_⟩
    by_contra stops
    simp only [not_or, not_and_or, not_not] at stops
    exact last ⟨l, r, split, stops⟩
  · intro inner c blank
    rw [ne_eq, Assignment.head?_name_iff begins assigned visible named blank, ne_eq,
      Assignment.getLast?_name_iff begins assigned visible named blank]
    constructor
    · rintro ⟨l, r, split, leading⟩
      exact (inner l c r split blank).1 leading
    · rintro ⟨l, r, split, closed, single, stop⟩
      rcases (inner l c r split blank).2 with brace | mark | ⟨brace, mark⟩
      · exact closed brace
      · exact single mark
      · exact stop.elim brace mark

theorem Declares.named_tidy_iff (declares : Declares content number s) :
    (s.name ≠ [] ↔ Named content s.kind) ∧ (Text.trim s.name = s.name ↔ Tidy content s.kind) := by
  cases declares with
  | function begins signed =>
    obtain ⟨named, trimmed⟩ := function_named_tidy_iff begins signed
    exact ⟨named, iff_of_true trimmed trivial⟩
  | command begins =>
    obtain ⟨named, ends⟩ := command_named_tidy_iff begins
    exact ⟨named, Text.trim_eq_self_iff.trans ends⟩
  | event begins => exact ⟨event_named_tidy_iff.1, Text.trim_eq_self_iff.trans event_named_tidy_iff.2⟩
  | «variable» begins assigned visible named =>
    exact ⟨iff_of_true named trivial, Text.trim_eq_self_iff.trans (variable_tidy_iff begins assigned visible named)⟩

theorem name_tidy_of_optionOf? (made : optionOf? n = some s) : s.name ≠ [] ∧ Text.trim s.name = s.name := by
  obtain ⟨-, -, key, rest, -, visible, rfl⟩ := optionOf?_eq_some_iff.mp made
  exact ⟨visible, Text.trim_trim key⟩

end Symbol

/-- Option keys and global variables always have a name, and what a line declares otherwise
    has one exactly if the line gives it one. Option keys and the names of functions never
    have blank ends; any other name has none exactly if the line leaves it none. -/
theorem symbol_name_tidy_iff (options : ParseOptions) (text : Text) :
    ∀ s ∈ (parse options text).symbols, ∃ n ∈ (parse options text).nodes, n.number = s.line ∧
      (s.name ≠ [] ↔ Symbol.Named n.content s.kind) ∧
      (Text.trim s.name = s.name ↔ Symbol.Tidy n.content s.kind) := by
  intro s declared
  obtain ⟨n, member, made⟩ := mem_symbols.mp declared
  refine ⟨n, member, (Symbol.line_of_ofNode? made).symm, ?_⟩
  rcases Symbol.ofNode?_eq_some_iff.mp made with own | ⟨-, -, entry⟩
  · obtain ⟨-, declares⟩ := (Symbol.declaredBy?_iff_declares (construct_of_mem_parse member)).mp own
    exact declares.named_tidy_iff
  · obtain ⟨some, trimmed⟩ := Symbol.name_tidy_of_optionOf? entry
    obtain ⟨-, -, key, rest, -, -, rfl⟩ := Symbol.optionOf?_eq_some_iff.mp entry
    exact ⟨iff_of_true some trivial, iff_of_true trimmed trivial⟩

/-- Lines that give names with blank characters around them, and lines that give none. -/
def oddNames : Text :=
  "on  join:\nset \x7b x \x7d to 1\nfunction  heal (n: number):\ncommand \u00a0/home:\nfunction ():\ncommand /:\non :\n".toList

/-- Some of these lines by their numbers, with the kind of what they declare. -/
def oddLines : List (Nat × SymbolKind × Text) :=
  [(2, .variable, "set \x7b x \x7d to 1".toList), (3, .function, "function  heal (n: number):".toList),
    (6, .command, "command /:".toList)]

/-- Spaces around its name belong to a variable but not to a function, and slashes and
    colons give no name to a command. -/
theorem symbol_name_tidy_iff_odd_names :
    (∃ s ∈ (parse {} oddNames).symbols, s.line = 2 ∧ s.name ≠ [] ∧ Text.trim s.name ≠ s.name) ∧
    (∃ s ∈ (parse {} oddNames).symbols, s.line = 3 ∧ s.name ≠ [] ∧ Text.trim s.name = s.name) ∧
    ∃ s ∈ (parse {} oddNames).symbols, s.line = 6 ∧ s.name = [] := by
  have declared : ∀ line ∈ oddLines, ∃ s ∈ (parse {} oddNames).symbols, s.line = line.1 ∧ s.kind = line.2.1 := by
    decide +kernel
  have contents : ∀ line ∈ oddLines, ∀ n ∈ (parse {} oddNames).nodes, n.number = line.1 → n.content = line.2.2 := by
    decide +kernel
  have told : ∀ line ∈ oddLines, ∃ s ∈ (parse {} oddNames).symbols, s.line = line.1 ∧
      (s.name ≠ [] ↔ Symbol.Named line.2.2 line.2.1) ∧
      (Text.trim s.name = s.name ↔ Symbol.Tidy line.2.2 line.2.1) := by
    intro line listed
    obtain ⟨s, member, number, kind⟩ := declared line listed
    obtain ⟨n, of, place, named, tidy⟩ := symbol_name_tidy_iff {} oddNames s member
    rw [contents line listed n of (place.trans number), kind] at named tidy
    exact ⟨s, member, number, named, tidy⟩
  refine ⟨?_, ?_, ?_⟩
  · obtain ⟨s, member, number, named, tidy⟩ := told _ List.mem_cons_self
    refine ⟨s, member, number, named.mpr trivial, fun trimmed => ?_⟩
    have inner := (tidy.mp trimmed [] ' ' "x \x7d to 1".toList (by decide) (by decide)).1
    exact inner (by decide)
  · obtain ⟨s, member, number, named, tidy⟩ := told _ (List.mem_cons_of_mem _ List.mem_cons_self)
    exact ⟨s, member, number, named.mpr ⟨'h', by decide, by decide⟩, tidy.mpr trivial⟩
  · obtain ⟨s, member, number, named, -⟩ := told _ (List.mem_cons_of_mem _ (List.mem_cons_of_mem _ List.mem_cons_self))
    have word : ("command /:".toList.drop 8).takeWhile (· != ' ') = ['/', ':'] := by decide
    refine ⟨s, member, number, not_not.mp (named.not.mpr ?_)⟩
    rintro ⟨c, inside, other⟩
    exact other (word ▸ inside)

/-- A name can begin or end with blank characters, and a name can be empty. -/
theorem names_blank_or_untrimmed :
    (parse {} oddNames).symbols.map (fun s => (s.kind, s.name)) =
      [(.event, " join".toList), (.variable, " x ".toList), (.function, "heal".toList),
        (.command, "\u00a0home".toList), (.function, []), (.command, []), (.event, [])] ∧
    ∀ name ∈ [" join".toList, " x ".toList, "\u00a0home".toList], Text.trim name ≠ name := by
  decide +kernel

end ScriptAtlas
