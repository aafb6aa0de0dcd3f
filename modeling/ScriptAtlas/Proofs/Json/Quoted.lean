import ScriptAtlas.Proofs.Json.Scalars

/-!
Texts between quotes. What is written between quotes may mean a text (`Means`): a
surrogate means a character only together with the other half of its pair. Such
a text is read as what it means (`Means.yields_readText`, `Means.accepts`), and
every text means itself in its printed form (`means_printed`).
-/
namespace ScriptAtlas.Json

/-! ### What is written and what it means -/

/-- What may stand between quotes. -/
inductive IsContent : Text → Prop
  | nil : IsContent []
  | plain {c : Char} {s : Text} (quote : c ≠ '"') (backslash : c ≠ '\\') (visible : 32 ≤ c.toNat)
      (others : IsContent s) : IsContent (c :: s)
  | short {e c : Char} {s : Text} (escape : shortEscape? e = some c) (others : IsContent s) :
      IsContent ('\\' :: e :: s)
  | unit {a b c d : Char} {n : Nat} {s : Text} (hex : hexValue? a b c d = some n) (others : IsContent s) :
      IsContent ('\\' :: 'u' :: a :: b :: c :: d :: s)

/-- What stands between quotes means a text. -/
inductive Means : Text → Text → Prop
  | nil : Means [] []
  | plain {c : Char} {s t : Text} (quote : c ≠ '"') (backslash : c ≠ '\\') (visible : 32 ≤ c.toNat)
      (others : Means s t) : Means (c :: s) (c :: t)
  | short {e c : Char} {s t : Text} (escape : shortEscape? e = some c) (others : Means s t) :
      Means ('\\' :: e :: s) (c :: t)
  | unit {a b c d : Char} {n : Nat} {s t : Text} (hex : hexValue? a b c d = some n)
      (single : isLeading n = false ∧ isTrailing n = false) (others : Means s t) :
      Means ('\\' :: 'u' :: a :: b :: c :: d :: s) (Char.ofNat n :: t)
  | pair {a b c d e f g h : Char} {m n : Nat} {s t : Text} (hex : hexValue? a b c d = some m)
      (leading : isLeading m = true) (hex' : hexValue? e f g h = some n) (trailing : isTrailing n = true)
      (others : Means s t) :
      Means ('\\' :: 'u' :: a :: b :: c :: d :: '\\' :: 'u' :: e :: f :: g :: h :: s) (pairChar m n :: t)

theorem Means.isContent {s t : Text} (means : Means s t) : IsContent s := by
  induction means with
  | nil => exact .nil
  | plain quote backslash visible _ ih => exact .plain quote backslash visible ih
  | short escape _ ih => exact .short escape ih
  | unit hex _ _ ih => exact .unit hex ih
  | pair hex _ hex' _ _ ih => exact .unit hex (.unit hex' ih)

theorem Means.append {s s' t t' : Text} (first : Means s t) (second : Means s' t') : Means (s ++ s') (t ++ t') := by
  induction first with
  | nil => exact second
  | plain quote backslash visible _ ih => exact .plain quote backslash visible ih
  | short escape _ ih => exact .short escape ih
  | unit hex single _ ih => exact .unit hex single ih
  | pair hex leading hex' trailing _ ih => exact .pair hex leading hex' trailing ih

/-! ### Reading -/

theorem readText_quote (s : Text) (place : Place) : readText ⟨'"' :: s, place⟩ = .ok ([], ⟨s, place.past '"'⟩) := by
  rw [readText]
  rfl

theorem readText_plain {c : Char} (quote : c ≠ '"') (backslash : c ≠ '\\') (visible : 32 ≤ c.toNat)
    (s : Text) (place : Place) :
    readText ⟨c :: s, place⟩ = (readText ⟨s, place.past c⟩).map fun (t, k) => (c :: t, k) := by
  rw [readText]
  split
  · rename_i nothing
    cases nothing
  · rename_i same
    cases same
    rw [if_neg quote, if_neg backslash, if_neg (Nat.not_lt.mpr visible)]
    rfl

theorem readText_escape {s rest : Text} {c : Char} {place : Place}
    (escape : Yields (readEscape ⟨s, place.past '\\'⟩) c rest) :
    ∃ reached, readText ⟨'\\' :: s, place⟩ = (readText ⟨rest, reached⟩).map fun (t, k) => (c :: t, k) := by
  obtain ⟨reached, read⟩ := escape
  refine ⟨reached, ?_⟩
  rw [readText]
  split
  · rename_i nothing
    cases nothing
  · rename_i same
    cases same
    rw [if_neg (by decide), if_pos rfl]
    split
    · rename_i failed
      rw [Cursor.skip, read] at failed
      cases failed
    · rename_i found
      rw [Cursor.skip, read] at found
      cases found
      rfl

theorem ne_of_shortEscape? {e c : Char} (escape : shortEscape? e = some c) : e ≠ 'u' := by
  rintro rfl
  cases escape

theorem yields_readEscaped_short {e c : Char} (escape : shortEscape? e = some c) (s : Text) (place : Place) :
    Yields (readEscaped ⟨e :: s, place⟩) (.char c) s := by
  simp only [readEscaped, if_neg (ne_of_shortEscape? escape), escape]
  exact yields_ok _ _ _

theorem yields_readHex {a b c d : Char} {n : Nat} (hex : hexValue? a b c d = some n) (s : Text) (place : Place) :
    Yields (readHex ⟨a :: b :: c :: d :: s, place⟩) n s := by
  simp only [readHex, hex]
  exact yields_ok _ _ _

theorem yields_readEscaped_unit {a b c d : Char} {n : Nat} (hex : hexValue? a b c d = some n) (s : Text)
    (place : Place) : Yields (readEscaped ⟨'u' :: a :: b :: c :: d :: s, place⟩) (.unit n) s :=
  (yields_readHex hex s (place.past 'u')).map fun _ => rfl

theorem yields_readEscape_short {e c : Char} (escape : shortEscape? e = some c) (s : Text) (place : Place) :
    Yields (readEscape ⟨e :: s, place⟩) c s :=
  (yields_readEscaped_short escape s place).bind fun place => yields_ok c s place

theorem yields_readEscape_unit {a b c d : Char} {n : Nat} (hex : hexValue? a b c d = some n)
    (single : isLeading n = false ∧ isTrailing n = false) (s : Text) (place : Place) :
    Yields (readEscape ⟨'u' :: a :: b :: c :: d :: s, place⟩) (Char.ofNat n) s := by
  refine (yields_readEscaped_unit hex s place).bind fun place => ?_
  simp only [single.1, single.2]
  exact yields_ok _ _ _

theorem yields_readEscape_pair {a b c d e f g h : Char} {m n : Nat} (hex : hexValue? a b c d = some m)
    (leading : isLeading m = true) (hex' : hexValue? e f g h = some n) (trailing : isTrailing n = true) (s : Text)
    (place : Place) :
    Yields (readEscape ⟨'u' :: a :: b :: c :: d :: '\\' :: 'u' :: e :: f :: g :: h :: s, place⟩) (pairChar m n) s := by
  have other : isTrailing m = false := by
    simp only [isLeading, isTrailing, Bool.and_eq_true, decide_eq_true_eq, Bool.and_eq_false_iff,
      decide_eq_false_iff_not] at leading ⊢
    omega
  refine (yields_readEscaped_unit hex ('\\' :: 'u' :: e :: f :: g :: h :: s) place).bind fun place => ?_
  simp only [other, leading, Bool.false_eq_true, if_false, if_true, readTrailing]
  refine (yields_ok () _ (place.past '\\')).bind fun place => ?_
  refine (yields_ok () _ (place.past 'u')).bind fun place => ?_
  refine (yields_readHex hex' s place).bind fun place => ?_
  simp only [trailing, if_true]
  exact yields_ok _ _ _

/-- What is written between quotes is read as what it means. -/
theorem Means.yields_readText {s t : Text} (means : Means s t) (rest : Text) (place : Place) :
    Yields (readText ⟨s ++ '"' :: rest, place⟩) t rest := by
  have escaped {s' tail t : Text} {c : Char} {place : Place}
      (escape : Yields (readEscape ⟨s', place.past '\\'⟩) c (tail ++ '"' :: rest))
      (others : ∀ place, Yields (readText ⟨tail ++ '"' :: rest, place⟩) t rest) :
      Yields (readText ⟨'\\' :: s', place⟩) (c :: t) rest := by
    obtain ⟨reached, read⟩ := readText_escape escape
    rw [read]
    exact (others reached).map fun _ => rfl
  induction means generalizing place with
  | nil =>
    rw [List.nil_append, readText_quote]
    exact yields_ok _ _ _
  | plain quote backslash visible _ ih =>
    rw [List.cons_append, readText_plain quote backslash visible]
    exact (ih _).map fun _ => rfl
  | short escape _ ih => exact escaped (yields_readEscape_short escape _ _) ih
  | unit hex single _ ih => exact escaped (yields_readEscape_unit hex single _ _) ih
  | pair hex leading hex' trailing _ ih => exact escaped (yields_readEscape_pair hex leading hex' trailing _ _) ih

/-- What is written with its quotes is accepted as what it means. -/
theorem Means.accepts {s t : Text} (means : Means s t) : Accepts readString ('"' :: (s ++ ['"'])) t := by
  refine .of_passed ⟨_, _, rfl, rfl⟩ fun k rest place _ passed => ?_
  rw [List.cons_append, List.append_assoc] at passed
  rw [readString, passed]
  exact means.yields_readText rest _

/-! ### Printed texts -/

theorem hexValue?_twoDigits : ∀ n < 32,
    hexValue? '0' '0' (Nat.digitChar (n / 16 % 16)) (Nat.digitChar (n % 16)) = some n := by
  decide

/-- A text means itself in its printed form. -/
theorem means_printed (s : Text) : Means (s.flatMap printedChar) s := by
  induction s with
  | nil => exact .nil
  | cons c s ih =>
    rw [List.flatMap_cons]
    unfold printedChar
    split
    case h_8 =>
      rename_i quote backslash _ _ _ _ _
      split
      · rename_i control
        have single : isLeading c.toNat = false ∧ isTrailing c.toNat = false := by
          simp only [isLeading, isTrailing, Bool.and_eq_false_iff, decide_eq_false_iff_not]
          omega
        have unit := Means.unit (hexValue?_twoDigits c.toNat control) single ih
        rwa [Char.ofNat_toNat] at unit
      · rename_i visible
        exact .plain quote backslash (Nat.not_lt.mp visible) ih
    all_goals exact .short rfl ih

theorem yields_readText (s rest : Text) (place : Place) :
    Yields (readText ⟨s.flatMap printedChar ++ '"' :: rest, place⟩) s rest :=
  (means_printed s).yields_readText rest place

theorem accepts_printedText (s : Text) : Accepts readString (printedText s) s := (means_printed s).accepts

theorem shows_text (s : Text) : Shows readString (.text s) s := fun level => by
  rw [Value.printAt]
  exact accepts_printedText s

end ScriptAtlas.Json
