import ScriptAtlas.Proofs.Json.Grammar

/-!
Passing over values that are not kept. The reader of ignored values passes over
every well-formed value, nested as deeply as it likes, and stops exactly behind
it (`IsValue.passes`). Two steps for each character are enough, so the bound on
the steps never ends the reading of a well-formed value.
-/
namespace ScriptAtlas.Json

/-! ### Texts between quotes -/

theorem skipText_quote (s : Text) (place : Place) : skipText ⟨'"' :: s, place⟩ = .ok ((), ⟨s, place.past '"'⟩) := by
  rw [skipText]
  rfl

theorem skipText_plain {c : Char} (quote : c ≠ '"') (backslash : c ≠ '\\') (visible : 32 ≤ c.toNat) (s : Text)
    (place : Place) : skipText ⟨c :: s, place⟩ = skipText ⟨s, place.past c⟩ := by
  rw [skipText]
  split
  · rename_i nothing
    cases nothing
  · rename_i same
    cases same
    rw [if_neg quote, if_neg backslash, if_neg (Nat.not_lt.mpr visible)]
    rfl

theorem skipText_escape {s rest : Text} {e : Escaped} {place : Place}
    (escape : Yields (readEscaped ⟨s, place.past '\\'⟩) e rest) :
    ∃ reached, skipText ⟨'\\' :: s, place⟩ = skipText ⟨rest, reached⟩ := by
  obtain ⟨reached, read⟩ := escape
  refine ⟨reached, ?_⟩
  rw [skipText]
  split
  · rename_i nothing
    cases nothing
  · rename_i same
    cases same
    rw [if_neg (by decide), if_pos rfl]
    split
    · rename_i failed
      rw [Cursor.skip, read] at failed
      cases failed
    · rename_i found
      rw [Cursor.skip, read] at found
      cases found
      rfl

theorem IsContent.yields_skipText {s : Text} (content : IsContent s) (rest : Text) (place : Place) :
    Yields (skipText ⟨s ++ '"' :: rest, place⟩) () rest := by
  induction content generalizing place with
  | nil =>
    rw [List.nil_append, skipText_quote]
    exact yields_ok _ _ _
  | plain quote backslash visible _ ih =>
    rw [List.cons_append, skipText_plain quote backslash visible]
    exact ih _
  | @short e c s escape _ ih =>
    obtain ⟨reached, skipped⟩ := skipText_escape (yields_readEscaped_short escape (s ++ '"' :: rest) (place.past '\\'))
    rw [List.cons_append, List.cons_append, skipped]
    exact ih reached
  | @unit a b c d n s hex _ ih =>
    obtain ⟨reached, skipped⟩ := skipText_escape (yields_readEscaped_unit hex (s ++ '"' :: rest) (place.past '\\'))
    simp only [List.cons_append, skipped]
    exact ih reached

/-! ### Numbers -/

theorem IsDigits.exists_passDigits {digits rest : Text} (decimal : IsDigits digits)
    (stops : ∀ c ∈ rest.head?, c.isDigit = false) (place : Place) :
    ∃ reached, Cursor.passDigits ⟨digits ++ rest, place⟩ = ⟨rest, reached⟩ :=
  exists_pass Char.isDigit decimal.decimal stops place

theorem IsDigits.atDigit {digits : Text} (decimal : IsDigits digits) (rest : Text) (place : Place) :
    Cursor.atDigit ⟨digits ++ rest, place⟩ = true := by
  obtain ⟨c, tail, rfl, digit⟩ := decimal.exists_cons
  simpa [Cursor.atDigit] using digit

/-- An exponent is not a continuation of the digits before it. -/
theorem IsExponent.head?_append {exponent : Text} (scaled : IsExponent exponent) {rest : Text} (ends : Ends rest) :
    ∀ c ∈ (exponent ++ rest).head?, c.isDigit = false ∧ c ≠ '.' := by
  intro c first
  cases scaled with
  | none =>
    have other := ends c first
    simp only [Bool.or_eq_false_iff, beq_eq_false_iff_ne] at other
    exact ⟨other.1.1.1, other.1.1.2⟩
  | some marked _ _ =>
    cases first
    rcases marked with rfl | rfl
    · exact ⟨rfl, by decide⟩
    · exact ⟨rfl, by decide⟩

theorem IsPlaces.head?_append {places exponent : Text} (fraction : IsPlaces places) (scaled : IsExponent exponent)
    {rest : Text} (ends : Ends rest) : ∀ c ∈ (places ++ (exponent ++ rest)).head?, c.isDigit = false := by
  intro c first
  cases fraction with
  | none => exact (scaled.head?_append ends c first).1
  | some _ =>
    cases first
    rfl

theorem IsDigits.exists_passSign {sign digits rest : Text} (decimal : IsDigits digits)
    (signed : sign = [] ∨ sign = ['+'] ∨ sign = ['-']) {k : Cursor} {place : Place}
    (written : k = ⟨sign ++ (digits ++ rest), place⟩) :
    ∃ reached, (if k.rest.head?.any fun c => c == '+' || c == '-' then k.skip else k) = ⟨digits ++ rest, reached⟩ := by
  subst written
  rcases signed with rfl | rfl | rfl
  · obtain ⟨c, tail, rfl, digit⟩ := decimal.exists_cons
    have plus : c ≠ '+' := by
      rintro rfl
      cases digit
    have minus : c ≠ '-' := by
      rintro rfl
      cases digit
    exact ⟨place, by simp [plus, minus]⟩
  · exact ⟨_, rfl⟩
  · exact ⟨_, rfl⟩

theorem IsExponent.yields_skip {exponent : Text} (scaled : IsExponent exponent) {rest : Text} (ends : Ends rest)
    (place : Place) :
    Yields (if Cursor.atExponent ⟨exponent ++ rest, place⟩ then skipExponent ⟨exponent ++ rest, place⟩
      else .ok ((), ⟨exponent ++ rest, place⟩)) () rest := by
  cases scaled with
  | none =>
    rw [List.nil_append, ends.atExponent]
    exact yields_ok _ _ _
  | @some mark sign digits marked signed decimal =>
    have at_mark : Cursor.atExponent ⟨mark :: (sign ++ digits) ++ rest, place⟩ = true := by
      rcases marked with rfl | rfl <;> rfl
    have written : Cursor.skip ⟨mark :: (sign ++ digits) ++ rest, place⟩ = ⟨sign ++ (digits ++ rest), place.past mark⟩ := by
      rw [List.cons_append, List.append_assoc]
      rfl
    obtain ⟨reached, behind⟩ := decimal.exists_passSign signed written
    obtain ⟨last, passed⟩ := decimal.exists_passDigits ends.not_isDigit reached
    simp only [if_pos at_mark, skipExponent, behind, decimal.atDigit, if_true, passed]
    exact yields_ok _ _ _

theorem IsPlaces.yields_skip {places exponent : Text} (fraction : IsPlaces places) (scaled : IsExponent exponent)
    {rest : Text} (ends : Ends rest) (place : Place) :
    Yields (
      let k : Cursor := ⟨places ++ (exponent ++ rest), place⟩
      if k.rest.head? = .some '.' then skipPlaces k else if k.atExponent then skipExponent k else .ok ((), k)) ()
      rest := by
  cases fraction with
  | none =>
    have point : (exponent ++ rest).head? ≠ .some '.' := fun first => (scaled.head?_append ends '.' first).2 rfl
    simp only [List.nil_append, if_neg point]
    exact scaled.yields_skip ends place
  | @some digits decimal =>
    obtain ⟨reached, passed⟩ := decimal.exists_passDigits (fun c first => (scaled.head?_append ends c first).1) (place.past '.')
    have digit := decimal.atDigit (exponent ++ rest) (place.past '.')
    show Yields (skipPlaces ⟨'.' :: (digits ++ (exponent ++ rest)), place⟩) () rest
    simp only [skipPlaces, Cursor.skip, digit, if_true, passed]
    exact scaled.yields_skip ends reached

theorem IsNumber.yields_skipNumber {s : Text} (number : IsNumber s) {rest : Text} (ends : Ends rest) (place : Place) :
    Yields (skipNumber ⟨s ++ rest, place⟩) () rest := by
  cases number with
  | @of sign whole places exponent signed decimal leading fraction scaled =>
    have stops := fraction.head?_append scaled ends
    have unsigned (place : Place) :
        Yields (skipUnsigned ⟨whole ++ (places ++ (exponent ++ rest)), place⟩) () rest := by
      obtain ⟨reached, passed⟩ := decimal.exists_passDigits stops place
      have single : ¬ ((whole ++ (places ++ (exponent ++ rest))).head? = some '0' ∧
          (Cursor.skip ⟨whole ++ (places ++ (exponent ++ rest)), place⟩).atDigit = true) := by
        rintro ⟨zero, more⟩
        obtain ⟨c, tail, written, -⟩ := decimal.exists_cons
        have alone : whole = ['0'] := leading (by rw [written] at zero ⊢; exact zero)
        rw [alone] at more
        have none : Cursor.atDigit ⟨places ++ (exponent ++ rest), place.past '0'⟩ = false :=
          (Option.any_eq_false _ _).mpr stops
        exact Bool.eq_false_iff.mp none more
      simp only [skipUnsigned, decimal.atDigit, if_true, if_neg single, passed]
      exact fraction.yields_skip scaled ends reached
    simp only [List.append_assoc]
    rcases signed with rfl | rfl
    · obtain ⟨c, tail, written, digit⟩ := decimal.exists_cons
      have positive : (whole ++ (places ++ (exponent ++ rest))).head? ≠ some '-' := by
        rw [written]
        intro same
        cases same
        cases digit
      rw [List.nil_append, skipNumber, if_neg positive]
      exact unsigned place
    · exact unsigned (place.past '-')

/-! ### Values -/

/-- A value is passed over wherever it stands, in two steps for each of its characters. -/
def Passes (v : Text) : Prop :=
  ∀ fuel gap rest place, 2 * v.length ≤ fuel → isGap gap = true → Ends rest →
    Yields (skipValueIn fuel ⟨gap ++ (v ++ rest), place⟩) () rest

/-- What follows an element of an array is passed over together with it. -/
def ItemsPass (s : Text) : Prop :=
  ∀ v, IsValue v → Passes v → ∀ fuel gap rest place, 2 * (v.length + s.length) ≤ fuel → isGap gap = true →
    Yields (skipItemsIn fuel ⟨gap ++ (v ++ (s ++ rest)), place⟩) () rest

/-- What follows a member of an object is passed over together with it. -/
def MembersPass (s : Text) : Prop :=
  ∀ key before behind v, IsContent key → isGap before = true → isGap behind = true → IsValue v → Passes v →
    ∀ fuel gap rest place, 2 * (v.length + s.length) ≤ fuel → isGap gap = true →
      Yields (skipMembersIn fuel
        ⟨gap ++ '"' :: (key ++ '"' :: (before ++ ':' :: (behind ++ (v ++ (s ++ rest))))), place⟩) () rest

theorem passes_scalar {c : Char} {tail : Text} (starts : startsValue c = true) (array : c ≠ '[') (object : c ≠ '\x7b')
    (skips : ∀ rest place, Ends rest → Yields (skipScalar ⟨c :: (tail ++ rest), place⟩) () rest) :
    Passes (c :: tail) := by
  intro fuel gap rest place enough blank ends
  obtain ⟨fuel, rfl⟩ : ∃ n, fuel = n + 1 := ⟨fuel - 1, by simp only [List.length_cons] at enough; omega⟩
  obtain ⟨reached, passed⟩ := exists_passSpace blank (isSpace_of_startsValue starts) (tail ++ rest) place
  rw [List.cons_append, skipValueIn]
  simp only [passed]
  split
  · rename_i same
    cases same
    exact absurd rfl array
  · rename_i same
    cases same
    exact absurd rfl object
  · exact skips rest reached ends

theorem passes_number {s : Text} (number : IsNumber s) : Passes s := by
  obtain ⟨c, tail, written, first⟩ := number.exists_cons
  obtain ⟨d, tail', written', starts⟩ := (IsValue.number number).exists_cons
  rw [written] at written'
  obtain ⟨rfl, rfl⟩ := List.cons.inj written'
  rw [written]
  refine passes_scalar starts ?_ ?_ fun rest place ends => ?_
  · rintro rfl
    rcases first with other | other <;> cases other
  · rintro rfl
    rcases first with other | other <;> cases other
  · have skipped := number.yields_skipNumber ends place
    rw [written] at skipped
    have scalar : skipScalar ⟨c :: (tail ++ rest), place⟩ = skipNumber ⟨c :: (tail ++ rest), place⟩ := by
      have numeric : c = '-' || c.isDigit := by simpa using first
      unfold skipScalar
      split
      case h_1 same => cases same
      case h_6 same =>
        cases same
        rw [if_pos numeric]
      all_goals
        rename_i same
        cases same
        cases numeric
    rw [scalar]
    exact skipped

theorem passes_text {s : Text} (content : IsContent s) : Passes ('"' :: (s ++ ['"'])) := by
  refine passes_scalar rfl (by decide) (by decide) fun rest place _ => ?_
  rw [List.append_assoc]
  exact content.yields_skipText rest (place.past '"')

theorem passes_empty_array {gap : Text} (blank : isGap gap = true) : Passes ('[' :: (gap ++ [']'])) := by
  intro fuel before rest place enough blank' _
  obtain ⟨fuel, rfl⟩ : ∃ n, fuel = n + 1 := ⟨fuel - 1, by simp only [List.length_cons] at enough; omega⟩
  obtain ⟨reached, passed⟩ := exists_passSpace blank' (rfl : isSpace '[' = false) (gap ++ ']' :: rest) place
  obtain ⟨last, passed'⟩ := exists_passSpace blank (rfl : isSpace ']' = false) rest (reached.past '[')
  simp only [List.cons_append, List.append_assoc, List.nil_append, skipValueIn, passed, Cursor.skip, passed']
  exact yields_ok _ _ _

theorem passes_array {gap v s : Text} (blank : isGap gap = true) (value : IsValue v) (passes : Passes v)
    (others : ItemsPass s) : Passes ('[' :: (gap ++ (v ++ s))) := by
  intro fuel before rest place enough blank' _
  simp only [List.length_cons, List.length_append] at enough
  obtain ⟨fuel, rfl⟩ : ∃ n, fuel = n + 1 := ⟨fuel - 1, by omega⟩
  have items (place : Place) : Yields (skipItemsIn fuel ⟨v ++ (s ++ rest), place⟩) () rest :=
    others v value passes fuel [] rest place (by omega) isGap_nil
  obtain ⟨c, tail, rfl, starts⟩ := value.exists_cons
  let inside := c :: (tail ++ (s ++ rest))
  obtain ⟨reached, passed⟩ := exists_passSpace blank' (rfl : isSpace '[' = false) (gap ++ inside) place
  obtain ⟨last, passed'⟩ :=
    exists_passSpace blank (isSpace_of_startsValue starts) (tail ++ (s ++ rest)) (reached.past '[')
  simp only [inside] at passed
  simp only [List.cons_append, List.append_assoc, skipValueIn, passed, Cursor.skip, passed'] at items ⊢
  split
  · rename_i nothing
    cases nothing
  · rename_i bracket
    cases bracket
    exact absurd rfl (ne_bracket_of_startsValue starts)
  · exact items last

theorem itemsPass_close {gap : Text} (blank : isGap gap = true) : ItemsPass (gap ++ [']']) := by
  intro v value passes fuel before rest place enough blank'
  have long := value.length_pos
  simp only [List.length_append, List.length_singleton] at enough
  obtain ⟨fuel, rfl⟩ : ∃ n, fuel = n + 1 := ⟨fuel - 1, by omega⟩
  rw [skipItemsIn, List.append_assoc]
  refine (passes fuel before _ place (by omega) blank' (ends_gap blank (.inr (.inl rfl)) rest)).bind fun place => ?_
  obtain ⟨reached, passed⟩ := exists_passSpace blank (rfl : isSpace ']' = false) rest place
  simp only [passed]
  exact yields_ok _ _ _

theorem itemsPass_item {before behind v s : Text} (blank : isGap before = true) (blank' : isGap behind = true)
    (value : IsValue v) (passes : Passes v) (others : ItemsPass s) :
    ItemsPass (before ++ ',' :: behind ++ (v ++ s)) := by
  intro w element elementPasses fuel gap rest place enough blankGap
  have long := element.length_pos
  simp only [List.length_append, List.length_cons] at enough
  obtain ⟨fuel, rfl⟩ : ∃ n, fuel = n + 1 := ⟨fuel - 1, by omega⟩
  simp only [List.append_assoc, List.cons_append]
  rw [skipItemsIn]
  refine (elementPasses fuel gap _ place (by omega) blankGap (ends_gap blank (.inl rfl) _)).bind fun place => ?_
  obtain ⟨reached, passed⟩ := exists_passSpace blank (rfl : isSpace ',' = false) (behind ++ (v ++ (s ++ rest))) place
  simp only [passed]
  exact others v value passes fuel behind rest _ (by omega) blank'

theorem passes_empty_object {gap : Text} (blank : isGap gap = true) : Passes ('\x7b' :: (gap ++ ['\x7d'])) := by
  intro fuel before rest place enough blank' _
  obtain ⟨fuel, rfl⟩ : ∃ n, fuel = n + 1 := ⟨fuel - 1, by simp only [List.length_cons] at enough; omega⟩
  obtain ⟨reached, passed⟩ := exists_passSpace blank' (rfl : isSpace '\x7b' = false) (gap ++ '\x7d' :: rest) place
  obtain ⟨last, passed'⟩ := exists_passSpace blank (rfl : isSpace '\x7d' = false) rest (reached.past '\x7b')
  simp only [List.cons_append, List.append_assoc, List.nil_append, skipValueIn, passed, Cursor.skip, passed']
  exact yields_ok _ _ _

theorem yields_skipKey {gap key before : Text} (blank : isGap gap = true) (content : IsContent key)
    (blank' : isGap before = true) (rest : Text) (place : Place) :
    Yields (skipKey ⟨gap ++ '"' :: (key ++ '"' :: (before ++ ':' :: rest)), place⟩) () rest := by
  obtain ⟨reached, passed⟩ :=
    exists_passSpace blank (rfl : isSpace '"' = false) (key ++ '"' :: (before ++ ':' :: rest)) place
  simp only [skipKey, passed, Cursor.skip]
  exact (content.yields_skipText _ _).bind fun place => yields_readColon blank' rest place

theorem membersPass_close {gap : Text} (blank : isGap gap = true) : MembersPass (gap ++ ['\x7d']) := by
  intro key before behind v content blank' blank'' value passes fuel lead rest place enough blankLead
  have long := value.length_pos
  simp only [List.length_append, List.length_singleton] at enough
  obtain ⟨fuel, rfl⟩ : ∃ n, fuel = n + 1 := ⟨fuel - 1, by omega⟩
  rw [skipMembersIn, List.append_assoc]
  refine (yields_skipKey blankLead content blank' _ place).bind fun place => ?_
  refine (passes fuel behind _ place (by omega) blank'' (ends_gap blank (.inr (.inr rfl)) rest)).bind fun place => ?_
  obtain ⟨reached, passed⟩ := exists_passSpace blank (rfl : isSpace '\x7d' = false) rest place
  simp only [passed]
  exact yields_ok _ _ _

theorem membersPass_member {lead lead' key before behind v s : Text} (blank : isGap lead = true)
    (blank' : isGap lead' = true) (content : IsContent key) (blankBefore : isGap before = true)
    (blankBehind : isGap behind = true) (value : IsValue v) (passes : Passes v) (others : MembersPass s) :
    MembersPass (lead ++ ',' :: lead' ++ '"' :: (key ++ '"' :: (before ++ ':' :: (behind ++ (v ++ s))))) := by
  intro first before' behind' w firstContent blankBefore' blankBehind' element elementPasses fuel gap rest place enough
    blankGap
  have long := element.length_pos
  simp only [List.length_append, List.length_cons] at enough
  obtain ⟨fuel, rfl⟩ : ∃ n, fuel = n + 1 := ⟨fuel - 1, by omega⟩
  simp only [List.append_assoc, List.cons_append]
  rw [skipMembersIn]
  refine (yields_skipKey blankGap firstContent blankBefore' _ place).bind fun place => ?_
  refine (elementPasses fuel behind' _ place (by omega) blankBehind' (ends_gap blank (.inl rfl) _)).bind
    fun place => ?_
  obtain ⟨reached, passed⟩ := exists_passSpace blank (rfl : isSpace ',' = false)
    (lead' ++ '"' :: (key ++ '"' :: (before ++ ':' :: (behind ++ (v ++ (s ++ rest)))))) place
  simp only [passed]
  exact others key before behind v content blankBefore blankBehind value passes fuel lead' rest _ (by omega) blank'

theorem passes_object {gap key before behind v s : Text} (blank : isGap gap = true) (content : IsContent key)
    (blank' : isGap before = true) (blank'' : isGap behind = true) (value : IsValue v) (passes : Passes v)
    (others : MembersPass s) :
    Passes ('\x7b' :: (gap ++ '"' :: (key ++ '"' :: (before ++ ':' :: (behind ++ (v ++ s)))))) := by
  intro fuel lead rest place enough blankLead _
  simp only [List.length_cons, List.length_append] at enough
  obtain ⟨fuel, rfl⟩ : ∃ n, fuel = n + 1 := ⟨fuel - 1, by omega⟩
  simp only [List.cons_append, List.append_assoc]
  let inside := key ++ '"' :: (before ++ ':' :: (behind ++ (v ++ (s ++ rest))))
  obtain ⟨reached, passed⟩ := exists_passSpace blankLead (rfl : isSpace '\x7b' = false) (gap ++ '"' :: inside) place
  obtain ⟨last, passed'⟩ := exists_passSpace blank (rfl : isSpace '"' = false) inside (reached.past '\x7b')
  simp only [inside] at passed passed'
  simp only [skipValueIn, passed, Cursor.skip, passed']
  exact others key before behind v content blank' blank'' value passes fuel [] rest last (by omega) isGap_nil

mutual

/-- The reader of ignored values passes over every well-formed value and stops behind it. -/
theorem IsValue.passes {v : Text} : IsValue v → Passes v
  | .null => passes_scalar rfl (by decide) (by decide) fun rest _ _ => yields_readWord "ull".toList rest _
  | .bool true => passes_scalar rfl (by decide) (by decide) fun rest _ _ => yields_readWord "rue".toList rest _
  | .bool false => passes_scalar rfl (by decide) (by decide) fun rest _ _ => yields_readWord "alse".toList rest _
  | .number number => passes_number number
  | .text content => passes_text content
  | .array (.close blank) => passes_empty_array blank
  | .array (.item (.first blank) value others) => passes_array blank value value.passes (others.pass rfl)
  | .object (.close blank) => passes_empty_object blank
  | .object (.member (.first blank) content blank' blank'' value others) =>
    passes_object blank content blank' blank'' value value.passes (others.pass rfl)

theorem IsItems.pass {first : Bool} {s : Text} : IsItems first s → first = false → ItemsPass s
  | .close blank, _ => itemsPass_close blank
  | .item (.comma blank blank') value others, _ =>
    itemsPass_item blank blank' value value.passes (others.pass rfl)

theorem IsMembers.pass {first : Bool} {s : Text} {members : List (Text × Text)} :
    IsMembers first s members → first = false → MembersPass s
  | .close blank, _ => membersPass_close blank
  | .member (.comma blank blank') content before behind value others, _ =>
    membersPass_member blank blank' content before behind value value.passes (others.pass rfl)

end

theorem IsValue.yields_skipValue {v gap rest : Text} (value : IsValue v) (blank : isGap gap = true) (ends : Ends rest)
    (place : Place) : Yields (skipValue ⟨gap ++ (v ++ rest), place⟩) () rest := by
  refine value.passes _ gap rest place ?_ blank ends
  simp only [List.length_append]
  omega

end ScriptAtlas.Json
