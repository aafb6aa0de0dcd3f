import ScriptAtlas.Text.Lowercase
import ScriptAtlas.Line.Construct

/-!
Keywords open a line and decide what it is. They are compared in lower case.
No spelling of one keyword begins with a spelling of another, so a line opens
with at most one of them.
-/
namespace ScriptAtlas

/-- The words that open a line. -/
inductive Keyword
  | function
  | command
  | comment
  | event
  | «if»
  | «else»
  | loop
  | trigger
  | «class»
  | stop
  | set
deriving DecidableEq, Repr

namespace Keyword

def all : List Keyword :=
  [function, command, comment, event, «if», «else», loop, trigger, «class», stop, set]

/-- How a keyword is written, in lower case. -/
def spellings : Keyword → List Text
  | function => ["function ".toList]
  | command => ["command ".toList]
  | comment => ["#".toList]
  | event => ["on ".toList]
  | «if» => ["if ".toList]
  | «else» => ["else ".toList, "else if".toList]
  | loop => ["loop ".toList, "while ".toList]
  | trigger => ["trigger:".toList]
  | «class» => ["class ".toList]
  | stop => ["stop ".toList]
  | set => ["set \x7b".toList]

/-- The words and the keywords they spell. -/
theorem mem_spellings_iff {k : Keyword} {word : Text} :
    word ∈ k.spellings ↔ (word, k) ∈
      [("function ".toList, function), ("command ".toList, command), ("#".toList, comment), ("on ".toList, event),
        ("if ".toList, «if»), ("else ".toList, «else»), ("else if".toList, «else»), ("loop ".toList, loop),
        ("while ".toList, loop), ("trigger:".toList, trigger), ("class ".toList, «class»), ("stop ".toList, stop),
        ("set \x7b".toList, set)] := by
  cases k <;> simp [spellings]

def opens (k : Keyword) (lower : Text) : Bool := k.spellings.any (·.isPrefixOf lower)

/-- The keyword that a text in lower case opens with. -/
def ofLower? (lower : Text) : Option Keyword := all.find? (·.opens lower)

/-- The second word of a line, where single spaces separate words. -/
def secondWord (content : Text) : Text := ((Text.pieces ' ' content)[1]?).getD []

/-- What a line with the keyword is. -/
def construct (k : Keyword) (content : Text) : Construct :=
  match k with
  | function => .function (Signature.ofLine? content)
  | command => .command (Text.without ['/', ':'] (secondWord content))
  | comment => .comment
  | event => .event (Text.erase "on ".toList (Text.without [':'] content))
  | «if» => .ifStatement
  | «else» => .elseStatement
  | loop => .loop
  | trigger => .trigger
  | «class» => .class (Text.dropFinal ':' (secondWord content))
  | stop => .stop
  | set => .setVar (Assignment.ofLine? content)

/-- A text opens with at most one keyword. -/
theorem eq_of_opens {k l : Keyword} {lower : Text} (hk : k.opens lower = true)
    (hl : l.opens lower = true) : k = l := by
  have apart : ∀ k l : Keyword, ∀ s ∈ k.spellings, ∀ t ∈ l.spellings,
      s.isPrefixOf t = true ∨ t.isPrefixOf s = true → k = l := by
    intro k l; cases k <;> cases l <;> decide
  obtain ⟨s, hs, ps⟩ := List.any_eq_true.mp hk
  obtain ⟨t, ht, pt⟩ := List.any_eq_true.mp hl
  simp only [List.isPrefixOf_iff_prefix] at ps pt apart
  exact apart k l s hs t ht (List.prefix_or_prefix_of_prefix ps pt)

end Keyword
end ScriptAtlas
