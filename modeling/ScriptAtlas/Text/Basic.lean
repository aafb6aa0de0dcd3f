/-!
A text is the list of its characters, each a Unicode scalar value, so every
rule about scripts is a rule about lists. Ranges of code points describe the
character properties that the rules consult.
-/
namespace ScriptAtlas

/-- A text is the list of its characters. -/
abbrev Text := List Char

/-- A set of characters given by inclusive intervals of code points. -/
abbrev CodeRanges := List (Nat × Nat)

/-- A character is in the ranges when its code point is in one of the intervals. -/
def CodeRanges.has (ranges : CodeRanges) (c : Char) : Bool :=
  ranges.any fun (low, high) => low ≤ c.toNat && c.toNat ≤ high

namespace Text

/-- The decimal digits of a number, most significant first. -/
def ofNat (n : Nat) : Text := Nat.toDigits 10 n

/-- A text repeated `n` times. -/
def repeated (n : Nat) (s : Text) : Text := (List.replicate n s).flatten

def joinWith (separator : Text) (texts : List Text) : Text := separator.intercalate texts

end Text
end ScriptAtlas
