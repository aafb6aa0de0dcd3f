import ScriptAtlas.Proofs.Json.Skipping

/-!
Readers of typed values on well-formed values of any type. Such a reader may
fail, but if it gives a result it has read the value to its end and nothing
behind it (`Confined`). That holds of the readers of words, numbers and texts
(`confined_readBool`, `confined_readNat`, `confined_readString`): a number that
is read as a natural one has neither a fraction nor an exponent, and a text ends
at its closing quotation mark whatever its escapes stand for.
-/
namespace ScriptAtlas.Json

variable {α β : Type}

/-- A reader that never stops inside or behind a well-formed value. -/
def Confined (read : Cursor → Outcome α) : Prop :=
  ∀ v, IsValue v → ∀ gap rest place a k, isGap gap = true → Ends rest →
    read ⟨gap ++ (v ++ rest), place⟩ = .ok (a, k) → k.rest = rest

/-- A reader that passes over white space first is confined if it is so behind that. -/
theorem Confined.of_passed {read : Cursor → Outcome α}
    (stops : ∀ v, IsValue v → ∀ k rest place a k', Ends rest → k.passSpace = ⟨v ++ rest, place⟩ →
      read k = .ok (a, k') → k'.rest = rest) : Confined read := by
  intro v value gap rest place a k blank ends found
  obtain ⟨c, tail, rfl, starts⟩ := value.exists_cons
  obtain ⟨reached, passed⟩ := exists_passSpace blank (isSpace_of_startsValue starts) (tail ++ rest) place
  exact stops _ value _ rest reached a k ends passed found

theorem Yields.rest_eq {o : Outcome α} {a b : α} {rest : Text} {k : Cursor} (yields : Yields o a rest)
    (found : o = .ok (b, k)) : k.rest = rest := by
  obtain ⟨place, rfl⟩ := yields
  cases found
  rfl

/-! ### Words -/

theorem confined_readBool : Confined readBool := by
  refine .of_passed fun v value k rest place a k' ends passed found => ?_
  rw [readBool, passed] at found
  cases value with
  | null => cases found
  | bool b =>
    cases b with
    | true => exact ((yields_readWord "rue".toList rest _).map fun _ => rfl).rest_eq found
    | false => exact ((yields_readWord "alse".toList rest _).map fun _ => rfl).rest_eq found
  | number number =>
    split at found
    · rename_i same
      exact absurd same (number.append_ne (by decide) rest _)
    · rename_i same
      exact absurd same (number.append_ne (by decide) rest _)
    · cases found
  | text content => cases found
  | array items => cases found
  | object list => cases found

/-! ### Numbers -/

theorem rest_passFrom (p : Char → Bool) (s : Text) (place : Place) :
    (Cursor.passFrom p s place).rest = s.dropWhile p := by
  induction s generalizing place with
  | nil => rfl
  | cons c s ih =>
    rw [Cursor.passFrom, List.dropWhile_cons]
    split
    · exact ih _
    · rfl

theorem rest_passDigits (k : Cursor) : k.passDigits.rest = k.rest.dropWhile Char.isDigit := rest_passFrom _ _ _

/-- Digits that do not fit into a significand are passed over all the same. -/
theorem dropWhile_gatherFrom (limit : Nat) (s : Text) (place : Place) (value count : Nat) :
    (gatherFrom limit s place value count).cursor.rest.dropWhile Char.isDigit = s.dropWhile Char.isDigit := by
  induction s generalizing place value count with
  | nil => rfl
  | cons c s ih =>
    rw [gatherFrom]
    split
    · rename_i digit
      rw [ih, List.dropWhile_cons, if_pos digit.1]
    · rfl

/-- An outcome is no natural number. -/
def NotNatural (o : Outcome Number) : Prop := ∀ n k, o ≠ .ok (.natural n, k)

theorem notNatural_fractionOf (isNegative : Bool) (significand : Nat) (exponent : Int) (k : Cursor) :
    NotNatural (fractionOf isNegative significand exponent k) := by
  intro n k' same
  unfold fractionOf at same
  split at same <;> cases same

theorem notNatural_readExponent (isNegative : Bool) (significand : Nat) (exponent : Int) (k : Cursor) :
    NotNatural (readExponent isNegative significand exponent k) := by
  intro n k' same
  simp only [readExponent] at same
  repeat' split at same
  all_goals first
    | exact notNatural_fractionOf _ _ _ _ _ _ same
    | cases same

theorem notNatural_readPlaces (isNegative : Bool) (significand : Nat) (exponent : Int) (k : Cursor) :
    NotNatural (readPlaces isNegative significand exponent k) := by
  intro n k' same
  simp only [readPlaces] at same
  split at same
  · cases same
  · split at same
    · exact notNatural_readExponent _ _ _ _ _ _ same
    · exact notNatural_fractionOf _ _ _ _ _ _ same

/-- A natural number has no sign and ends where neither a fraction nor an exponent follows. -/
theorem eq_of_readTail_natural {isNegative : Bool} {significand dropped n : Nat} {k k' : Cursor}
    (natural : readTail isNegative significand dropped k = .ok (.natural n, k')) :
    k' = k ∧ isNegative = false ∧ k.rest.head? ≠ some '.' ∧ k.atExponent = false := by
  unfold readTail at natural
  split at natural
  · exact absurd natural (notNatural_readPlaces _ _ _ _ _ _)
  · rename_i point
    split at natural
    · exact absurd natural (notNatural_readExponent _ _ _ _ _ _)
    · rename_i mark
      split at natural
      · exact absurd natural (notNatural_fractionOf _ _ _ _ _ _)
      · split at natural
        · rename_i positive
          cases natural
          exact ⟨rfl, by simpa using positive, point, Bool.eq_false_iff.mpr mark⟩
        · split at natural
          · cases natural
          · exact absurd natural (notNatural_fractionOf _ _ _ _ _ _)

theorem rest_of_readUnsigned_natural {isNegative : Bool} {n : Nat} {k k' : Cursor}
    (natural : readUnsigned isNegative k = .ok (.natural n, k')) :
    k'.rest = k.rest.dropWhile Char.isDigit ∧ isNegative = false ∧ k'.rest.head? ≠ some '.' ∧ k'.atExponent = false := by
  obtain ⟨s, place⟩ := k
  unfold readUnsigned at natural
  split at natural
  · cases natural
  · rename_i tail zero
    cases zero
    split at natural
    · cases natural
    · rename_i alone
      obtain ⟨rfl, tailFacts⟩ := eq_of_readTail_natural natural
      refine ⟨?_, tailFacts⟩
      -- The zero is the only digit.
      show tail = ('0' :: tail).dropWhile Char.isDigit
      rw [List.dropWhile_cons, if_pos (by decide)]
      cases tail with
      | nil => rfl
      | cons c tail => rw [List.dropWhile_cons, if_neg (by simpa [Cursor.atDigit, Cursor.skip] using alone)]
  · split at natural
    · obtain ⟨rfl, tailFacts⟩ := eq_of_readTail_natural natural
      refine ⟨?_, tailFacts⟩
      rw [rest_passDigits, gather, dropWhile_gatherFrom]
    · cases natural

theorem rest_of_readNumber_natural {s rest : Text} (number : IsNumber s) (ends : Ends rest) {n : Nat} {place : Place}
    {k : Cursor} (natural : readNumber ⟨s ++ rest, place⟩ = .ok (.natural n, k)) : k.rest = rest := by
  cases number with
  | @of sign whole places exponent signed decimal leading fraction scaled =>
    unfold readNumber at natural
    split at natural
    · exact absurd (rest_of_readUnsigned_natural natural).2.1 (by decide)
    · rename_i unsigned
      obtain ⟨behind, -, point, mark⟩ := rest_of_readUnsigned_natural natural
      obtain ⟨tail, place'⟩ := k
      rcases signed with rfl | rfl
      · have digits : ∀ c ∈ whole, c.isDigit = true := List.all_eq_true.mp decimal.decimal
        have stops := fraction.head?_append scaled ends
        have dropped : (places ++ (exponent ++ rest)).dropWhile Char.isDigit = places ++ (exponent ++ rest) := by
          cases tail' : places ++ (exponent ++ rest) with
          | nil => rfl
          | cons c _ =>
            rw [tail'] at stops
            rw [List.dropWhile_cons, if_neg (Bool.eq_false_iff.mp (stops c rfl))]
        simp only [List.nil_append, List.append_assoc, List.dropWhile_append_of_pos digits, dropped] at behind
        subst behind
        cases fraction with
        | some _ => exact absurd rfl point
        | none =>
          cases scaled with
          | some marked _ _ => rcases marked with rfl | rfl <;> cases mark
          | none => rfl
      · exact absurd rfl unsigned

theorem confined_readNat : Confined readNat := by
  refine .of_passed fun v value k rest place a k' ends passed found => ?_
  rw [readNat, passed] at found
  cases value with
  | null => cases found
  | bool b => cases b <;> cases found
  | number number =>
    split at found
    · split at found
      · cases found
      · rename_i natural
        cases found
        exact rest_of_readNumber_natural number ends natural
      · cases found
      · cases found
    · cases found
  | text content => cases found
  | array items => cases found
  | object list => cases found

/-! ### Texts -/

theorem readPairMark_of_ne {mark c : Char} (other : c ≠ mark) (s : Text) (place : Place) :
    ∃ fault, readPairMark mark ⟨c :: s, place⟩ = .error fault :=
  ⟨_, by rw [readPairMark]; exact if_neg other⟩

/-- What reading a part of a text between quotes leaves is the rest of it, with
    the closing quotation mark. -/
def LeavesContent (s rest : Text) (k : Cursor) : Prop :=
  ∃ left, IsContent left ∧ left.length < s.length ∧ k.rest = left ++ '"' :: rest

theorem leavesContent_of_readTrailing {s rest : Text} (content : IsContent s) {m : Nat} {c : Char} {place : Place}
    {k : Cursor} (found : readTrailing m ⟨s ++ '"' :: rest, place⟩ = .ok (c, k)) : LeavesContent s rest k := by
  cases content with
  | nil => cases found
  | @plain d s quote backslash visible others =>
    obtain ⟨fault, failed⟩ := readPairMark_of_ne backslash (s ++ '"' :: rest) place
    simp only [readTrailing, List.cons_append, failed, bind, Except.bind] at found
    cases found
  | @short e d s escape others =>
    obtain ⟨fault, failed⟩ := readPairMark_of_ne (ne_of_shortEscape? escape) (s ++ '"' :: rest) (place.past '\\')
    have first (s : Text) : readPairMark '\\' ⟨'\\' :: s, place⟩ = .ok ((), ⟨s, place.past '\\'⟩) := rfl
    simp only [readTrailing, List.cons_append, first, failed, bind, Except.bind] at found
    cases found
  | @unit a b d e n s hex others =>
    obtain ⟨reached, read⟩ := yields_readHex hex (s ++ '"' :: rest) ((place.past '\\').past 'u')
    have first (s : Text) : readPairMark '\\' ⟨'\\' :: s, place⟩ = .ok ((), ⟨s, place.past '\\'⟩) := rfl
    have second (s : Text) (place : Place) : readPairMark 'u' ⟨'u' :: s, place⟩ = .ok ((), ⟨s, place.past 'u'⟩) := rfl
    simp only [readTrailing, List.cons_append, first, second, read, bind, Except.bind] at found
    split at found
    · simp only [pure, Except.pure, Except.ok.injEq, Prod.mk.injEq] at found
      obtain ⟨-, rfl⟩ := found
      exact ⟨s, others, by simp only [List.length_cons]; omega, rfl⟩
    · cases found

theorem leavesContent_of_readEscape {s rest : Text} (content : IsContent ('\\' :: s)) {c : Char} {place : Place}
    {k : Cursor} (found : readEscape ⟨s ++ '"' :: rest, place⟩ = .ok (c, k)) : LeavesContent s rest k := by
  cases content with
  | plain _ backslash => exact absurd rfl backslash
  | @short e d s escape others =>
    obtain ⟨reached, read⟩ := yields_readEscaped_short escape (s ++ '"' :: rest) place
    simp only [readEscape, List.cons_append, read, bind, Except.bind] at found
    cases found
    exact ⟨s, others, by simp, rfl⟩
  | @unit a b d e n s hex others =>
    obtain ⟨reached, read⟩ := yields_readEscaped_unit hex (s ++ '"' :: rest) place
    simp only [readEscape, List.cons_append, read, bind, Except.bind] at found
    split at found
    · cases found
    · split at found
      · obtain ⟨left, leftContent, shorter, behind⟩ := leavesContent_of_readTrailing others found
        exact ⟨left, leftContent, by simp only [List.length_cons]; omega, behind⟩
      · cases found
        exact ⟨s, others, by simp only [List.length_cons]; omega, rfl⟩

theorem exists_readEscape_of_readText {s t : Text} {place : Place} {k : Cursor}
    (found : readText ⟨'\\' :: s, place⟩ = .ok (t, k)) :
    ∃ c k' t', readEscape ⟨s, place.past '\\'⟩ = .ok (c, k') ∧ readText k' = .ok (t', k) := by
  rw [readText] at found
  split at found
  · rename_i nothing
    cases nothing
  · rename_i same
    cases same
    rw [if_neg (by decide), if_pos rfl] at found
    split at found
    · cases found
    · rename_i c k' escape
      cases rest : readText k' with
      | error fault =>
        rw [rest] at found
        cases found
      | ok r =>
        rw [rest] at found
        cases found
        exact ⟨c, k', r.1, escape, rest⟩

/-- A text that is read ends at its closing quotation mark. -/
theorem IsContent.rest_of_readText {s rest : Text} (content : IsContent s) {t : Text} {place : Place} {k : Cursor}
    (found : readText ⟨s ++ '"' :: rest, place⟩ = .ok (t, k)) : k.rest = rest := by
  induction length : s.length using Nat.strongRecOn generalizing s t place with
  | ind n ih =>
    have escaped {s' : Text} (content' : IsContent ('\\' :: s')) (here : s = '\\' :: s') : k.rest = rest := by
      subst here
      obtain ⟨c, k', t', escape, others⟩ := exists_readEscape_of_readText found
      obtain ⟨left, leftContent, shorter, behind⟩ := leavesContent_of_readEscape content' escape
      obtain ⟨tail, reached⟩ := k'
      subst behind
      simp only [List.length_cons] at length
      exact ih left.length (by omega) leftContent others rfl
    cases content with
    | nil =>
      rw [List.nil_append, readText_quote] at found
      cases found
      rfl
    | @plain c s quote backslash visible others =>
      rw [List.cons_append, readText_plain quote backslash visible] at found
      cases tail : readText ⟨s ++ '"' :: rest, place.past c⟩ with
      | error fault =>
        rw [tail] at found
        cases found
      | ok r =>
        rw [tail] at found
        cases found
        simp only [List.length_cons] at length
        exact ih s.length (by omega) others tail rfl
    | short escape others => exact escaped (.short escape others) rfl
    | unit hex others => exact escaped (.unit hex others) rfl

theorem confined_readString : Confined readString := by
  refine .of_passed fun v value k rest place a k' ends passed found => ?_
  rw [readString, passed] at found
  cases value with
  | null => cases found
  | bool b => cases b <;> cases found
  | number number =>
    split at found
    · rename_i same
      exact absurd same (number.append_ne (by decide) rest _)
    · cases found
  | @text s content =>
    rw [List.cons_append, List.append_assoc] at found
    exact content.rest_of_readText found
  | array items => cases found
  | object list => cases found

end ScriptAtlas.Json
