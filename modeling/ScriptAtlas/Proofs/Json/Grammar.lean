import ScriptAtlas.Proofs.Json.Containers

/-!
Well-formed JSON. A value is a word, a number, a text between quotes, an array
or an object (`IsValue`); between the parts of arrays and objects there may be
white space. The members of an object are listed with their keys as they are
written and the texts of their values (`IsMembers`).
-/
namespace ScriptAtlas.Json

/-! ### Numbers -/

structure IsDigits (s : Text) : Prop where
  nonempty : s ≠ []
  decimal : s.all Char.isDigit = true

/-- The digits behind a decimal point, if there is one. -/
inductive IsPlaces : Text → Prop
  | none : IsPlaces []
  | some {digits : Text} (decimal : IsDigits digits) : IsPlaces ('.' :: digits)

/-- An exponent, if there is one. -/
inductive IsExponent : Text → Prop
  | none : IsExponent []
  | some {mark : Char} {sign digits : Text} (marked : mark = 'e' ∨ mark = 'E')
      (signed : sign = [] ∨ sign = ['+'] ∨ sign = ['-']) (decimal : IsDigits digits) :
      IsExponent (mark :: (sign ++ digits))

/-- A number. Its first digit is zero only if it is the only one before the decimal point. -/
inductive IsNumber : Text → Prop
  | of {sign whole places exponent : Text} (signed : sign = [] ∨ sign = ['-']) (decimal : IsDigits whole)
      (leading : whole.head? = some '0' → whole = ['0']) (fraction : IsPlaces places)
      (scaled : IsExponent exponent) : IsNumber (sign ++ (whole ++ (places ++ exponent)))

/-! ### Values -/

mutual

/-- A well-formed value. -/
inductive IsValue : Text → Prop
  | null : IsValue "null".toList
  | bool (b : Bool) : IsValue (if b then "true".toList else "false".toList)
  | number {s : Text} (number : IsNumber s) : IsValue s
  | text {s : Text} (content : IsContent s) : IsValue ('"' :: (s ++ ['"']))
  | array {s : Text} (items : IsItems true s) : IsValue ('[' :: s)
  | object {s : Text} {members : List (Text × Text)} (list : IsMembers true s members) : IsValue ('\x7b' :: s)

/-- The elements of an array up to its end, from the first one or another one on. -/
inductive IsItems : Bool → Text → Prop
  | close {first : Bool} {gap : Text} (blank : isGap gap = true) : IsItems first (gap ++ [']'])
  | item {first : Bool} {lead v s : Text} (leads : Leads first lead) (value : IsValue v)
      (others : IsItems false s) : IsItems first (lead ++ (v ++ s))

/-- The members of an object up to its end, from the first one or another one on. -/
inductive IsMembers : Bool → Text → List (Text × Text) → Prop
  | close {first : Bool} {gap : Text} (blank : isGap gap = true) : IsMembers first (gap ++ ['\x7d']) []
  | member {first : Bool} {lead key before behind v s : Text} {members : List (Text × Text)}
      (leads : Leads first lead) (content : IsContent key) (blank : isGap before = true)
      (blank' : isGap behind = true) (value : IsValue v) (others : IsMembers false s members) :
      IsMembers first (lead ++ '"' :: (key ++ '"' :: (before ++ ':' :: (behind ++ (v ++ s))))) ((key, v) :: members)

end

/-! ### How values begin -/

/-- The characters with which a value begins. -/
def startsValue (c : Char) : Bool := opensValue c || c == '-' || c == 'n'

theorem isSpace_of_startsValue {c : Char} (starts : startsValue c = true) : isSpace c = false := by
  simp only [startsValue, Bool.or_eq_true, beq_iff_eq] at starts
  rcases starts with (opens | rfl) | rfl
  · exact isSpace_of_opensValue opens
  · rfl
  · rfl

theorem ne_bracket_of_startsValue {c : Char} (starts : startsValue c = true) : c ≠ ']' := by
  rintro rfl
  cases starts

theorem IsDigits.exists_cons {s : Text} (digits : IsDigits s) : ∃ c tail, s = c :: tail ∧ c.isDigit = true := by
  obtain ⟨c, tail, rfl⟩ := List.exists_cons_of_ne_nil digits.nonempty
  have decimal := digits.decimal
  rw [List.all_cons, Bool.and_eq_true] at decimal
  exact ⟨c, tail, rfl, decimal.1⟩

theorem IsNumber.exists_cons {s : Text} (number : IsNumber s) :
    ∃ c tail, s = c :: tail ∧ (c = '-' ∨ c.isDigit = true) := by
  cases number with
  | of signed decimal leading fraction scaled =>
    obtain ⟨c, tail, rfl, digit⟩ := decimal.exists_cons
    rcases signed with rfl | rfl
    · exact ⟨c, _, rfl, .inr digit⟩
    · exact ⟨'-', _, rfl, .inl rfl⟩

/-- A text does not begin with a number if its first character begins none. -/
theorem IsNumber.append_ne {s : Text} (number : IsNumber s) {c : Char} (other : c ≠ '-' ∧ c.isDigit = false)
    (rest tail : Text) : s ++ rest ≠ c :: tail := by
  obtain ⟨d, others, rfl, first⟩ := number.exists_cons
  intro same
  cases same
  rcases first with minus | digit
  · exact other.1 minus
  · exact absurd digit (Bool.eq_false_iff.mp other.2)

theorem IsValue.exists_cons {v : Text} (value : IsValue v) : ∃ c tail, v = c :: tail ∧ startsValue c = true := by
  cases value with
  | null => exact ⟨'n', _, rfl, rfl⟩
  | bool b => cases b <;> exact ⟨_, _, rfl, rfl⟩
  | number number =>
    obtain ⟨c, tail, rfl, first⟩ := number.exists_cons
    refine ⟨c, tail, rfl, ?_⟩
    rcases first with rfl | digit
    · rfl
    · simp [startsValue, opensValue, digit]
  | text content => exact ⟨'"', _, rfl, rfl⟩
  | array items => exact ⟨'[', _, rfl, rfl⟩
  | object list => exact ⟨'\x7b', _, rfl, rfl⟩

/-- What follows an element does not continue a number. -/
theorem IsItems.ends {s : Text} (items : IsItems false s) (rest : Text) : Ends (s ++ rest) := by
  cases items with
  | close blank => simpa using ends_gap blank (.inr (.inl rfl)) rest
  | item leads _ _ =>
    rw [List.append_assoc]
    exact leads.ends _

/-- What follows a member does not continue a number. -/
theorem IsMembers.ends {s : Text} {members : List (Text × Text)} (list : IsMembers false s members) (rest : Text) :
    Ends (s ++ rest) := by
  cases list with
  | close blank => simpa using ends_gap blank (.inr (.inr rfl)) rest
  | member leads _ _ _ _ _ =>
    rw [List.append_assoc]
    exact leads.ends _

theorem IsValue.length_pos {v : Text} (value : IsValue v) : 1 ≤ v.length := by
  obtain ⟨c, tail, rfl, -⟩ := value.exists_cons
  simp

end ScriptAtlas.Json
