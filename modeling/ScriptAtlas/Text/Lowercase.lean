import ScriptAtlas.Text.Cased
import ScriptAtlas.Text.Lowercase.Table

/-!
The lower case form of a text. Each character has a form of its own, with one
exception: a capital sigma becomes `ς` at the end of a word and `σ` elsewhere,
so its form depends on the text around it.
-/
namespace ScriptAtlas.Text

/-- The lower case form of a character outside ASCII, taken by itself. The
    dotted capital I keeps its dot as a second character. -/
def lowerWide (c : Char) : Text :=
  if c = 'İ' then ['i', '\u0307']
  else match Lowercase.runs.find? (·.has c.toNat) with
    | some run => [Char.ofNat (run.map c.toNat)]
    | none => [c]

/-- The lower case form of a character, taken by itself. -/
def lowerChar (c : Char) : Text := if c.toNat < 128 then [c.toLower] else lowerWide c

/-- Whether a letter with case comes next once the characters are passed over
    that do not interrupt a word. -/
def reachesLetter (s : Text) : Bool := ((s.dropWhile isCaseIgnorable).head?.map isCased).getD false

/-- The form of a capital sigma between the text before it, read backwards,
    and the text after it. -/
def lowerSigma (before after : Text) : Char :=
  if reachesLetter before && !reachesLetter after then 'ς' else 'σ'

/-- The lower case form of a text that follows `before`, which is read backwards. -/
def lowercaseFrom (before : Text) : Text → Text
  | [] => []
  | c :: s =>
    (if c = 'Σ' then [lowerSigma before s] else lowerChar c) ++ lowercaseFrom (c :: before) s

/-- The lower case form of a text. -/
def lowercase (s : Text) : Text := lowercaseFrom [] s

theorem lowerChar_ne_nil (c : Char) : lowerChar c ≠ [] := by
  rw [lowerChar, lowerWide]
  split
  · exact List.cons_ne_nil _ _
  · split
    · exact List.cons_ne_nil _ _
    · split <;> exact List.cons_ne_nil _ _

/-- Only the empty text has an empty lower case form. -/
theorem lowercase_eq_nil_iff {s : Text} : lowercase s = [] ↔ s = [] := by
  cases s with
  | nil => exact ⟨fun _ => rfl, fun _ => rfl⟩
  | cons c s =>
    rw [lowercase, lowercaseFrom]
    split <;> simp [lowerChar_ne_nil]

/-- Two texts are the same up to the case of ASCII letters. -/
def sameAscii (s t : Text) : Bool := s.map Char.toLower == t.map Char.toLower

end ScriptAtlas.Text
