import ScriptAtlas.Line.Reading
import ScriptAtlas.Proofs.Text.AsciiCase

/-!
What a line is, without an order of the rules. The keywords are compared in the
lower case form of a line, but no character outside ASCII passes for one of their
letters, so a line opens with a keyword exactly if it is spelled with ASCII letters
(`Keyword.opens_lowercase_iff`), and with one keyword at most. What suits a line
is therefore told by conditions that hold of one construct each (`Suits`,
`ofContent_eq_iff`), and rules that overwrite one another say the same, in
whatever order the keywords are tried (`ofContent_eq_overwritten`).
-/
namespace ScriptAtlas

namespace Keyword

variable {k l : Keyword} {content lower : Text}

/-- The kind of the lines that open with a keyword. -/
def kind : Keyword → Kind
  | function => .function
  | command => .command
  | comment => .comment
  | event => .event
  | «if» => .ifStatement
  | «else» => .elseStatement
  | loop => .loop
  | trigger => .trigger
  | «class» => .class
  | stop => .stop
  | set => .setVar

theorem kind_construct (k : Keyword) (content : Text) : (k.construct content).kind = k.kind := by
  cases k <;> rfl

/-- Different keywords stand for different kinds. -/
theorem eq_of_kind : ∀ {k l : Keyword}, k.kind = l.kind → k = l := by
  intro k l
  cases k <;> cases l <;> decide

/-- A line opens with a keyword, in ASCII letters of either case. -/
def Begins (k : Keyword) (content : Text) : Prop := ∃ word ∈ k.spellings, Text.BeginsWith word content

theorem isAsciiWord_of_mem_spellings : ∀ k : Keyword, ∀ word ∈ k.spellings, Text.isAsciiWord word = true := by
  intro k
  cases k <;> decide

/-- Only ASCII letters spell a keyword. -/
theorem opens_lowercase_iff : k.opens (Text.lowercase content) = true ↔ k.Begins content := by
  rw [opens, List.any_eq_true]
  refine exists_congr fun word => and_congr_right fun spelling => ?_
  exact Text.isPrefixOf_lowercase_iff (isAsciiWord_of_mem_spellings k word spelling) content

/-- A line that opens with a keyword of one spelling begins with it. -/
theorem Begins.beginsWith {word : Text} (only : k.spellings = [word]) (begins : k.Begins content) :
    Text.BeginsWith word content := by
  obtain ⟨spelled, spelling, begins⟩ := begins
  rw [only, List.mem_singleton] at spelling
  exact spelling ▸ begins

instance (k : Keyword) (content : Text) : Decidable (k.Begins content) :=
  decidable_of_iff (k.opens (Text.lowercase content) = true) opens_lowercase_iff

theorem Begins.unique (first : k.Begins content) (second : l.Begins content) : k = l :=
  eq_of_opens (opens_lowercase_iff.mpr first) (opens_lowercase_iff.mpr second)

theorem mem_all (k : Keyword) : k ∈ all := by
  cases k <;> decide

theorem ofLower?_eq_some_iff : ofLower? lower = some k ↔ k.opens lower = true := by
  have sound : ∀ {l : Keyword}, ofLower? lower = some l → l.opens lower = true := fun found =>
    List.find?_some (p := fun l : Keyword => l.opens lower) found
  constructor
  · exact sound
  · intro opens
    cases found : ofLower? lower with
    | none => exact absurd opens (List.find?_eq_none.mp found k (mem_all k))
    | some l => rw [eq_of_opens opens (sound found)]

theorem ofLower?_eq_none_iff : ofLower? lower = none ↔ ∀ k : Keyword, ¬ k.opens lower = true := by
  rw [ofLower?, List.find?_eq_none]
  exact ⟨fun none k => none k (mem_all k), fun none k _ => none k⟩

end Keyword

namespace Construct

variable {options : ParseOptions} {parent : Option Kind} {content : Text} {x : Construct}

/-- A line below a line of the kind `parent` counts as the entry of an options block. -/
def CountsAsEntry (options : ParseOptions) (parent : Option Kind) : Prop :=
  parent = some .options ∧ options.classifyOptions = true

/-- A line opens as the head of an options block that it can be. -/
def HeadsOptions (parent : Option Kind) (content : Text) : Prop :=
  parent ≠ some .options ∧ Text.BeginsWith optionsHead content

/-- The construct that suits a line with some content below a line of the kind
    `parent`. A keyword counts more than the shape of a call, and that more than
    the head of an options block. -/
inductive Suits (options : ParseOptions) (parent : Option Kind) (content : Text) : Construct → Prop
  | entry (counts : CountsAsEntry options parent) : Suits options parent content .option
  | keyword (k : Keyword) (free : ¬ CountsAsEntry options parent) (begins : k.Begins content) :
      Suits options parent content (k.construct content)
  | call (free : ¬ CountsAsEntry options parent) (plain : ∀ k : Keyword, ¬ k.Begins content)
      (shape : Call.hasShape content = true) :
      Suits options parent content (.functionCall (Call.name content))
  | options (free : ¬ CountsAsEntry options parent) (plain : ∀ k : Keyword, ¬ k.Begins content)
      (shapeless : Call.hasShape content = false) (head : HeadsOptions parent content) :
      Suits options parent content .options
  | statement (free : ¬ CountsAsEntry options parent) (plain : ∀ k : Keyword, ¬ k.Begins content)
      (shapeless : Call.hasShape content = false) (headless : ¬ HeadsOptions parent content)
      (some : content ≠ []) : Suits options parent content .statement
  | undefined (free : ¬ CountsAsEntry options parent) (plain : ∀ k : Keyword, ¬ k.Begins content)
      (shapeless : Call.hasShape content = false) (headless : ¬ HeadsOptions parent content)
      (none : content = []) : Suits options parent content .undefined

theorem headsOptions_iff :
    (!decide (parent = some .options) && optionsHead.isPrefixOf (Text.lowercase content)) = true ↔
      HeadsOptions parent content := by
  have word : Text.isAsciiWord optionsHead = true := by decide
  rw [Bool.and_eq_true, Text.isPrefixOf_lowercase_iff word, Bool.not_eq_true', decide_eq_false_iff_not]
  rfl

theorem ofContent_of_entry (counts : CountsAsEntry options parent) : ofContent options parent content = .option := by
  rw [ofContent]
  exact if_pos counts

theorem ofContent_of_begins (free : ¬ CountsAsEntry options parent) {k : Keyword} (begins : k.Begins content) :
    ofContent options parent content = k.construct content := by
  have found := Keyword.ofLower?_eq_some_iff.mpr (Keyword.opens_lowercase_iff.mpr begins)
  rw [ofContent, found]
  exact if_neg free

theorem ofContent_of_plain (free : ¬ CountsAsEntry options parent) (plain : ∀ k : Keyword, ¬ k.Begins content) :
    ofContent options parent content =
      ofPlain (parent = some .options) content (Text.lowercase content) := by
  have none : Keyword.ofLower? (Text.lowercase content) = none := by
    rw [Keyword.ofLower?_eq_none_iff]
    intro k opens
    exact plain k (Keyword.opens_lowercase_iff.mp opens)
  rw [ofContent, none]
  exact if_neg free

theorem suits_ofContent (options : ParseOptions) (parent : Option Kind) (content : Text) :
    Suits options parent content (ofContent options parent content) := by
  by_cases counts : CountsAsEntry options parent
  · rw [ofContent_of_entry counts]
    exact .entry counts
  by_cases keyword : ∃ k : Keyword, k.Begins content
  · obtain ⟨k, begins⟩ := keyword
    rw [ofContent_of_begins counts begins]
    exact .keyword k counts begins
  have plain : ∀ k : Keyword, ¬ k.Begins content := fun k begins => keyword ⟨k, begins⟩
  rw [ofContent_of_plain counts plain, ofPlain]
  split
  · rename_i shape
    exact .call counts plain shape
  rename_i shapeless
  have shapeless : Call.hasShape content = false := Bool.eq_false_iff.mpr shapeless
  split
  · rename_i head
    exact .options counts plain shapeless (headsOptions_iff.mp head)
  rename_i headless
  rw [headsOptions_iff] at headless
  split
  · rename_i none
    exact .undefined counts plain shapeless headless (List.isEmpty_iff.mp none)
  · rename_i some
    exact .statement counts plain shapeless headless fun none => some (List.isEmpty_iff.mpr none)

/-- A line is what suits it, and nothing else does. -/
theorem ofContent_eq_iff : ofContent options parent content = x ↔ Suits options parent content x := by
  constructor
  · rintro rfl
    exact suits_ofContent options parent content
  · intro suits
    cases suits with
    | entry counts => exact ofContent_of_entry counts
    | keyword k free begins => exact ofContent_of_begins free begins
    | call free plain shape => rw [ofContent_of_plain free plain, ofPlain, if_pos shape]
    | options free plain shapeless head =>
      rw [ofContent_of_plain free plain, ofPlain, shapeless, if_neg Bool.false_ne_true,
        if_pos (headsOptions_iff.mpr head)]
    | statement free plain shapeless headless some =>
      rw [ofContent_of_plain free plain, ofPlain, shapeless, if_neg Bool.false_ne_true,
        if_neg (headsOptions_iff.not.mpr headless), if_neg (List.isEmpty_iff.not.mpr some)]
    | undefined free plain shapeless headless none =>
      rw [ofContent_of_plain free plain, ofPlain, shapeless, if_neg Bool.false_ne_true,
        if_neg (headsOptions_iff.not.mpr headless), if_pos (List.isEmpty_iff.mpr none)]

/-- Only a line that opens with a keyword has the kind of the keyword. -/
theorem kind_ofContent_iff {k : Keyword} :
    (ofContent options parent content).kind = k.kind ↔ ¬ CountsAsEntry options parent ∧ k.Begins content := by
  constructor
  · intro same
    have suits := suits_ofContent options parent content
    generalize ofContent options parent content = x at suits same
    cases suits with
    | keyword l free begins =>
      rw [l.kind_construct] at same
      exact ⟨free, Keyword.eq_of_kind same ▸ begins⟩
    | entry | call | options | statement | undefined => cases k <;> cases same
  · rintro ⟨free, begins⟩
    rw [ofContent_of_begins free begins, k.kind_construct]

/-- Only what counts as the entry of an options block is one. -/
theorem kind_ofContent_eq_option_iff :
    (ofContent options parent content).kind = .option ↔ CountsAsEntry options parent := by
  constructor
  · intro same
    have suits := suits_ofContent options parent content
    generalize ofContent options parent content = x at suits same
    cases suits with
    | entry counts => exact counts
    | keyword k => cases k <;> cases same
    | call | options | statement | undefined => cases same
  · intro counts
    rw [ofContent_of_entry counts]
    rfl

/-- A line that begins like the head of an options block opens with no keyword. -/
theorem plain_of_options (head : Text.BeginsWith optionsHead content) (k : Keyword) : ¬ k.Begins content := by
  rintro ⟨word, spelling, begins⟩
  have apart : ∀ k : Keyword, ∀ word ∈ k.spellings,
      word.isPrefixOf optionsHead = false ∧ optionsHead.isPrefixOf word = false := by
    intro k
    cases k <;> decide
  have ascii : Text.isAsciiWord optionsHead = true := by decide
  have here := (Text.isPrefixOf_lowercase_iff (Keyword.isAsciiWord_of_mem_spellings k word spelling) content).mpr begins
  have there := (Text.isPrefixOf_lowercase_iff ascii content).mpr head
  obtain ⟨longer, shorter⟩ := apart k word spelling
  rcases List.prefix_or_prefix_of_prefix (List.isPrefixOf_iff_prefix.mp here) (List.isPrefixOf_iff_prefix.mp there) with
    inside | inside
  · rw [List.isPrefixOf_iff_prefix.mpr inside] at longer
    cases longer
  · rw [List.isPrefixOf_iff_prefix.mpr inside] at shorter
    cases shorter

/-- The head of an options block is not directly below another one, whatever counts
    as an entry there. -/
theorem kind_ofContent_eq_options_iff :
    (ofContent options parent content).kind = .options ↔
      (∀ k : Keyword, ¬ k.Begins content) ∧ Call.hasShape content = false ∧ HeadsOptions parent content := by
  constructor
  · intro same
    have suits := suits_ofContent options parent content
    generalize ofContent options parent content = x at suits same
    cases suits with
    | options _ plain shapeless head => exact ⟨plain, shapeless, head⟩
    | keyword k => cases k <;> cases same
    | entry | call | statement | undefined => cases same
  · rintro ⟨plain, shapeless, head⟩
    have free : ¬ CountsAsEntry options parent := fun counts => head.1 counts.1
    rw [ofContent_eq_iff.mpr (.options free plain shapeless head)]
    rfl

/-- Away from options blocks neither the line above nor what counts as an entry matters. -/
theorem ofContent_of_outside {options' : ParseOptions} {parent' : Option Kind} (outside : parent ≠ some .options)
    (outside' : parent' ≠ some .options) :
    ofContent options parent content = ofContent options' parent' content := by
  have free : ¬ CountsAsEntry options parent := fun counts => outside counts.1
  have suits := suits_ofContent options' parent' content
  generalize ofContent options' parent' content = x at suits
  rw [ofContent_eq_iff]
  cases suits with
  | entry counts => exact absurd counts.1 outside'
  | keyword k _ begins => exact .keyword k free begins
  | call _ plain shape => exact .call free plain shape
  | options _ plain shapeless head => exact .options free plain shapeless ⟨outside, head.2⟩
  | statement _ plain shapeless headless some =>
    exact .statement free plain shapeless (fun head => headless ⟨outside', head.2⟩) some
  | undefined _ plain shapeless headless none =>
    exact .undefined free plain shapeless (fun head => headless ⟨outside', head.2⟩) none

/-! ### Rules that overwrite one another -/

/-- What is said of a line once keywords have been tried one after the other,
    each of which replaces what was said before. -/
def overwrite (content : Text) (said : Construct) (order : List Keyword) : Construct :=
  order.foldl (fun said k => if k.opens (Text.lowercase content) then k.construct content else said) said

/-- What a line is if first the head of an options block is tried, then the shape
    of a call and then the keywords in some order. A line of which nothing is
    said is a statement, unless it is empty. -/
def overwritten (parent : Option Kind) (content : Text) (order : List Keyword) : Construct :=
  let head :=
    if !decide (parent = some .options) && optionsHead.isPrefixOf (Text.lowercase content) then .options
    else .undefined
  let called := if Call.hasShape content then .functionCall (Call.name content) else head
  let said := overwrite content called order
  if said = .undefined ∧ content ≠ [] then .statement else said

theorem overwrite_of_plain (plain : ∀ k : Keyword, ¬ k.Begins content) (said : Construct) (order : List Keyword) :
    overwrite content said order = said := by
  induction order with
  | nil => rfl
  | cons k rest ih =>
    have closed : ¬ k.opens (Text.lowercase content) = true := fun opens =>
      plain k (Keyword.opens_lowercase_iff.mp opens)
    rw [overwrite, List.foldl_cons, if_neg closed]
    exact ih

theorem overwrite_of_begins {k : Keyword} (begins : k.Begins content) {order : List Keyword} (tried : k ∈ order)
    (said : Construct) : overwrite content said order = k.construct content := by
  have opens := Keyword.opens_lowercase_iff.mpr begins
  -- No other keyword opens the line, so what `k` says stays.
  have stays : ∀ order : List Keyword, overwrite content (k.construct content) order = k.construct content := by
    intro order
    induction order with
    | nil => rfl
    | cons l rest ih =>
      rw [overwrite, List.foldl_cons]
      split
      · rename_i opens'
        rw [Keyword.eq_of_opens opens' opens]
        exact ih
      · exact ih
  induction order generalizing said with
  | nil => cases tried
  | cons l rest ih =>
    rw [overwrite, List.foldl_cons]
    rcases List.mem_cons.mp tried with rfl | later
    · rw [if_pos opens]
      exact stays rest
    · exact ih later _

/-- Trying all keywords in any order gives what suits the line. -/
theorem ofContent_eq_overwritten (free : ¬ CountsAsEntry options parent) {order : List Keyword}
    (complete : ∀ k : Keyword, k ∈ order) :
    ofContent options parent content = overwritten parent content order := by
  by_cases keyword : ∃ k : Keyword, k.Begins content
  · obtain ⟨k, begins⟩ := keyword
    have said : k.construct content ≠ .undefined := by
      cases k <;> exact fun same => by cases same
    rw [ofContent_of_begins free begins, overwritten, overwrite_of_begins begins (complete k),
      if_neg fun both => said both.1]
  · have plain : ∀ k : Keyword, ¬ k.Begins content := fun k begins => keyword ⟨k, begins⟩
    rw [ofContent_of_plain free plain, overwritten, overwrite_of_plain plain, ofPlain]
    cases Call.hasShape content with
    | true => simp
    | false =>
      cases !decide (parent = some .options) && optionsHead.isPrefixOf (Text.lowercase content) with
      | true => simp
      | false => cases content <;> simp

end Construct

/-- A line is read without an order of rules. It opens with one keyword at most,
    and a keyword decides its kind; it is what suits it, and its comment is split
    off unless the whole line is one. Trying the rules one after the other, each
    of which replaces what was said before, gives the same in any order of the
    keywords. -/
theorem Line.read_eq_iff (options : ParseOptions) (parent : Option Kind) (raw : Text) :
    (∀ k l : Keyword, k.Begins (contentOf raw) → l.Begins (contentOf raw) → k = l) ∧
    (∀ k : Keyword, (k.construct (contentOf raw)).kind = k.kind) ∧
    (∀ line, Line.read options parent raw = line ↔
      line.content = contentOf raw ∧ Construct.Suits options parent line.content line.construct ∧
        line.comment = if line.kind = .comment then none else Comment.ofLine line.content) ∧
    (¬ Construct.CountsAsEntry options parent → ∀ order, (∀ k : Keyword, k ∈ order) →
      (Line.read options parent raw).construct = Construct.overwritten parent (contentOf raw) order) := by
  refine ⟨fun k l => Keyword.Begins.unique, fun k => k.kind_construct _, fun line => ?_, fun free order complete => ?_⟩
  · constructor
    · rintro rfl
      exact ⟨rfl, Construct.suits_ofContent options parent (contentOf raw), rfl⟩
    · obtain ⟨content, construct, comment⟩ := line
      rintro ⟨rfl, suits, split⟩
      have split : comment = if construct.kind = .comment then none else Comment.ofLine (contentOf raw) := split
      rw [Line.read, Line.ofContent, Construct.ofContent_eq_iff.mpr suits, split]
  · exact Construct.ofContent_eq_overwritten free complete

/-- A line that has the shape of a call opens with a keyword in letters of both
    cases, below an options block whose lines do not count as entries. -/
theorem Line.read_eq_iff_called_trigger :
    ∃ raw, Call.hasShape (contentOf raw) = true ∧ Keyword.Begins .trigger (contentOf raw) ∧
      ¬ Construct.CountsAsEntry {} (some .options) ∧
      Line.read {} (some .options) raw = ⟨contentOf raw, .trigger, none⟩ ∧
      .trigger = Construct.overwritten (some .options) (contentOf raw) Keyword.all.reverse := by
  let raw := "\tTrigGER:go(1)\r".toList
  obtain ⟨-, -, reads, orders⟩ := Line.read_eq_iff {} (some .options) raw
  have begins : Keyword.Begins .trigger (contentOf raw) :=
    ⟨"trigger:".toList, by decide, "TrigGER:".toList, by decide, by decide⟩
  have free : ¬ Construct.CountsAsEntry {} (some .options) := by
    rintro ⟨-, on⟩
    cases on
  have read : Line.read {} (some .options) raw = ⟨contentOf raw, .trigger, none⟩ :=
    (reads ⟨contentOf raw, .trigger, none⟩).mpr ⟨rfl, .keyword .trigger free begins, by decide⟩
  refine ⟨raw, by decide, begins, free, read, ?_⟩
  rw [← orders free Keyword.all.reverse fun k => by cases k <;> decide, read]

end ScriptAtlas
