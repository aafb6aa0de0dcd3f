import ScriptAtlas.Json.Record
import ScriptAtlas.Json.Value

/-!
Readers against what they read. A reader accepts a text as a value if it reads
the value from it wherever the text stands, after any white space and before
anything that does not continue a number (`Accepts`). Faults and places play no
part in this. The readers of numbers and words accept the printed forms of their
values (`accepts_ofNat`, `accepts_true`, `accepts_false`).
-/
namespace ScriptAtlas.Json

variable {α β δ : Type}

/-! ### What reading leaves -/

/-- Reading gives a result and leaves the rest of the text. -/
def Yields (o : Outcome α) (a : α) (rest : Text) : Prop := ∃ place, o = .ok (a, ⟨rest, place⟩)

theorem Yields.bind {o : Outcome α} {f : α × Cursor → Outcome β} {a : α} {b : β} {rest behind : Text}
    (first : Yields o a rest) (next : ∀ place, Yields (f (a, ⟨rest, place⟩)) b behind) :
    Yields (Except.bind o f) b behind := by
  obtain ⟨place, rfl⟩ := first
  exact next place

theorem Yields.map {o : Outcome α} {f : α × Cursor → β × Cursor} {a : α} {b : β} {rest : Text}
    (first : Yields o a rest) (carried : ∀ place, f (a, ⟨rest, place⟩) = (b, ⟨rest, place⟩)) :
    Yields (o.map f) b rest := by
  obtain ⟨place, rfl⟩ := first
  exact ⟨place, congrArg Except.ok (carried place)⟩

theorem yields_ok (a : α) (rest : Text) (place : Place) : Yields (.ok (a, ⟨rest, place⟩)) a rest := ⟨place, rfl⟩

/-! ### White space -/

/-- White space between two parts of a JSON text. -/
def isGap (s : Text) : Bool := s.all isSpace

theorem isGap_nil : isGap [] = true := rfl

theorem isGap_blank : isGap [' '] = true := rfl

/-- The characters with which a value begins that is not `null`. -/
def opensValue (c : Char) : Bool :=
  c.isDigit || c == '"' || c == '[' || c == '\x7b' || c == 't' || c == 'f'

theorem isSpace_of_opensValue {c : Char} (opens : opensValue c = true) : isSpace c = false := by
  cases space : isSpace c with
  | false => rfl
  | true =>
    simp only [isSpace, Bool.or_eq_true, beq_iff_eq] at space
    rcases space with ((rfl | rfl) | rfl) | rfl <;> cases opens

theorem exists_pass (p : Char → Bool) {passed s : Text} (inside : passed.all p = true)
    (stops : ∀ c ∈ s.head?, p c = false) (place : Place) :
    ∃ reached, Cursor.pass p ⟨passed ++ s, place⟩ = ⟨s, reached⟩ := by
  simp only [Cursor.pass]
  induction passed generalizing place with
  | nil =>
    cases s with
    | nil => exact ⟨place, rfl⟩
    | cons c s =>
      refine ⟨place, ?_⟩
      rw [List.nil_append, Cursor.passFrom, if_neg (Bool.eq_false_iff.mp (stops c rfl))]
  | cons c passed ih =>
    rw [List.all_cons, Bool.and_eq_true] at inside
    obtain ⟨reached, same⟩ := ih inside.2 (place.past c)
    exact ⟨reached, by rw [List.cons_append, Cursor.passFrom, if_pos inside.1, same]⟩

theorem exists_passSpace {gap : Text} (blank : isGap gap = true) {c : Char} (ink : isSpace c = false) (rest : Text)
    (place : Place) : ∃ reached, Cursor.passSpace ⟨gap ++ c :: rest, place⟩ = ⟨c :: rest, reached⟩ :=
  exists_pass isSpace blank (fun d first => by cases first; exact ink) place

/-! ### Accepted texts -/

/-- What may stand behind a number: nothing that continues it. -/
def Ends (rest : Text) : Prop := ∀ c ∈ rest.head?, (c.isDigit || c == '.' || c == 'e' || c == 'E') = false

theorem ends_nil : Ends [] := fun _ member => by cases member

/-- A reader accepts a text as a value. -/
structure Accepts (read : Cursor → Outcome α) (s : Text) (a : α) : Prop where
  opens : ∃ c tail, s = c :: tail ∧ opensValue c = true
  reads : ∀ gap rest place, isGap gap = true → Ends rest → Yields (read ⟨gap ++ (s ++ rest), place⟩) a rest

/-- A reader that passes over white space first accepts what it reads behind
    that, if this begins as a value does. -/
theorem Accepts.of_passed {read : Cursor → Outcome α} {s : Text} {a : α}
    (opens : ∃ c tail, s = c :: tail ∧ opensValue c = true)
    (reads : ∀ k rest place, Ends rest → k.passSpace = ⟨s ++ rest, place⟩ → Yields (read k) a rest) :
    Accepts read s a where
  opens := opens
  reads gap rest place blank ends := by
    obtain ⟨c, tail, rfl, opening⟩ := opens
    obtain ⟨reached, passed⟩ := exists_passSpace blank (isSpace_of_opensValue opening) (tail ++ rest) place
    exact reads _ rest reached ends passed

theorem Accepts.reads_here {read : Cursor → Outcome α} {s : Text} {a : α} (accepts : Accepts read s a)
    {rest : Text} (ends : Ends rest) (place : Place) : Yields (read ⟨s ++ rest, place⟩) a rest :=
  accepts.reads [] rest place rfl ends

theorem Accepts.readWhole {read : Cursor → Outcome α} {s : Text} {a : α} (accepts : Accepts read s a) :
    Json.readWhole read s = .ok a := by
  obtain ⟨place, read_s⟩ := accepts.reads_here ends_nil {}
  rw [List.append_nil] at read_s
  rw [Json.readWhole, read_s]
  rfl

/-! ### Words -/

theorem yields_readWord (word rest : Text) (place : Place) : Yields (readWord word ⟨word ++ rest, place⟩) () rest := by
  induction word generalizing place with
  | nil => exact yields_ok _ _ _
  | cons c word ih =>
    rw [List.cons_append, readWord]
    simp only [if_true, Cursor.skip]
    exact ih (place.past c)

theorem accepts_true : Accepts readBool "true".toList true := by
  refine .of_passed ⟨_, _, rfl, rfl⟩ fun k rest place _ passed => ?_
  rw [readBool, passed]
  exact (yields_readWord "rue".toList rest _).map fun _ => rfl

theorem accepts_false : Accepts readBool "false".toList false := by
  refine .of_passed ⟨_, _, rfl, rfl⟩ fun k rest place _ passed => ?_
  rw [readBool, passed]
  exact (yields_readWord "alse".toList rest _).map fun _ => rfl

/-! ### Numbers -/

theorem le_ofDigitChars (digits : Text) (value : Nat) : value ≤ Nat.ofDigitChars 10 digits value := by
  induction digits generalizing value with
  | nil => exact Nat.le_refl _
  | cons c digits ih =>
    rw [Nat.ofDigitChars_cons]
    have := ih (10 * value + (c.toNat - '0'.toNat))
    omega

/-- All of the digits are gathered if the number they make is within the limit. -/
theorem exists_gatherFrom {limit : Nat} {digits rest : Text} (decimal : digits.all Char.isDigit = true)
    (stops : ∀ c ∈ rest.head?, c.isDigit = false) (place : Place) (value count : Nat)
    (fits : Nat.ofDigitChars 10 digits value ≤ limit) :
    ∃ reached, gatherFrom limit (digits ++ rest) place value count =
      ⟨Nat.ofDigitChars 10 digits value, count + digits.length, ⟨rest, reached⟩⟩ := by
  induction digits generalizing place value count with
  | nil =>
    refine ⟨place, ?_⟩
    rw [List.nil_append]
    cases rest with
    | nil => rfl
    | cons c rest =>
      rw [gatherFrom, if_neg fun more => Bool.eq_false_iff.mp (stops c rfl) more.1]
      rfl
  | cons c digits ih =>
    rw [List.all_cons, Bool.and_eq_true] at decimal
    rw [Nat.ofDigitChars_cons] at fits
    have next : value * 10 + digitValue c = 10 * value + (c.toNat - '0'.toNat) := by
      rw [digitValue, Nat.mul_comm]
    have within : value * 10 + digitValue c ≤ limit := next ▸ Nat.le_trans (le_ofDigitChars _ _) fits
    obtain ⟨reached, gathered⟩ := ih decimal.2 (place.past c) _ (count + 1) fits
    refine ⟨reached, ?_⟩
    rw [List.cons_append, gatherFrom, if_pos ⟨decimal.1, within⟩, next, gathered, Nat.ofDigitChars_cons,
      List.length_cons]
    congr 1
    omega

theorem head?_ofNat_ne_zero {n : Nat} (positive : 0 < n) : (Text.ofNat n).head? ≠ some '0' := by
  rw [Text.ofNat]
  induction n using Nat.strongRecOn with
  | ind n ih =>
    rw [Nat.toDigits_eq_if (by decide)]
    split
    · rw [List.head?_cons, ne_eq, Option.some.injEq, Nat.digitChar_eq_zero]
      omega
    · have less := ih (n / 10) (by omega) (by omega)
      have digits : Nat.toDigits 10 (n / 10) ≠ [] := List.ne_nil_of_length_pos Nat.length_toDigits_pos
      rwa [List.head?_append, Option.or_of_isSome (List.isSome_head?.mpr digits)]

theorem isDigit_ofNat (n : Nat) : (Text.ofNat n).all Char.isDigit = true :=
  List.all_eq_true.mpr fun _ member => Nat.isDigit_of_mem_toDigits (by decide) (by decide) member

/-- A natural number begins with a digit, which is zero for zero only. -/
theorem exists_ofNat_eq_cons (n : Nat) :
    ∃ c digits, Text.ofNat n = c :: digits ∧ c.isDigit = true ∧ (c = '0' → n = 0) := by
  cases written : Text.ofNat n with
  | nil => exact absurd written (List.ne_nil_of_length_pos Nat.length_toDigits_pos)
  | cons c digits =>
    refine ⟨c, digits, rfl, ?_, fun zero => ?_⟩
    · have decimal := isDigit_ofNat n
      rw [written, List.all_cons, Bool.and_eq_true] at decimal
      exact decimal.1
    · rcases Nat.eq_zero_or_pos n with same | positive
      · exact same
      · have leading := head?_ofNat_ne_zero positive
        rw [written, zero] at leading
        exact absurd rfl leading

theorem Ends.not_isDigit {rest : Text} (ends : Ends rest) : ∀ c ∈ rest.head?, c.isDigit = false := by
  intro c first
  have other := ends c first
  simp only [Bool.or_eq_false_iff] at other
  exact other.1.1.1

theorem Ends.atExponent {rest : Text} (ends : Ends rest) (place : Place) :
    Cursor.atExponent ⟨rest, place⟩ = false := by
  rw [Cursor.atExponent, Option.any_eq_false]
  intro c first
  have other := ends c first
  simp only [Bool.or_eq_false_iff] at other ⊢
  exact ⟨other.1.2, other.2⟩

theorem yields_readTail (n : Nat) {rest : Text} (ends : Ends rest) (place : Place) :
    Yields (readTail false n 0 ⟨rest, place⟩) (.natural n) rest := by
  have point : rest.head? ≠ some '.' := fun first => by cases ends '.' first
  rw [readTail, if_neg point, ends.atExponent]
  exact yields_ok _ _ _

theorem yields_readNumber {n : Nat} (fits : n ≤ significandLimit) {rest : Text} (ends : Ends rest) (place : Place) :
    Yields (readNumber ⟨Text.ofNat n ++ rest, place⟩) (.natural n) rest := by
  obtain ⟨c, digits, written, digit, zero⟩ := exists_ofNat_eq_cons n
  have unsigned : (Text.ofNat n ++ rest).head? ≠ some '-' := by
    rw [written]
    intro same
    cases same
    cases digit
  rw [readNumber, if_neg unsigned]
  by_cases leading : c = '0'
  · -- Only zero has a zero in front, and nothing follows it.
    have none := zero leading
    have alone : Cursor.atDigit ⟨rest, place.past '0'⟩ = false :=
      (Option.any_eq_false _ _).mpr ends.not_isDigit
    subst none
    show Yields (if Cursor.atDigit ⟨rest, place.past '0'⟩ = true then _ else _) _ _
    rw [if_neg (Bool.eq_false_iff.mp alone)]
    exact yields_readTail 0 ends _
  · have value : Nat.ofDigitChars 10 (Text.ofNat n) 0 = n := Nat.ofDigitChars_toDigits (by decide) (by decide)
    obtain ⟨reached, gathered⟩ :=
      exists_gatherFrom (isDigit_ofNat n) ends.not_isDigit place 0 0 (value.symm ▸ fits)
    obtain ⟨behind, passed⟩ := exists_pass Char.isDigit (List.all_nil (f := Char.isDigit)) ends.not_isDigit reached
    rw [value] at gathered
    rw [List.nil_append] at passed
    rw [written, List.cons_append] at gathered ⊢
    rw [readUnsigned]
    split
    · rename_i nothing
      cases nothing
    · rename_i other
      cases other
      exact absurd rfl leading
    · rename_i same
      cases same
      rw [if_pos digit]
      simp only [gather, Cursor.passDigits, gathered, passed, Nat.sub_self]
      exact yields_readTail n ends _

theorem accepts_ofNat {n : Nat} (fits : n ≤ significandLimit) : Accepts readNat (Text.ofNat n) n := by
  obtain ⟨c, digits, written, digit, -⟩ := exists_ofNat_eq_cons n
  refine .of_passed ⟨c, digits, written, ?_⟩ fun k rest place ends passed => ?_
  · rw [opensValue, digit]
    rfl
  · have starts : ((Text.ofNat n ++ rest).head?.any fun c => c == '-' || c.isDigit) = true := by
      rw [written, List.cons_append, List.head?_cons, Option.any_some, digit, Bool.or_true]
    obtain ⟨reached, number⟩ := yields_readNumber fits ends place
    rw [readNat, passed]
    simp only [starts, if_true, number]
    exact yields_ok _ _ _

/-! ### Values that may be absent -/

theorem Accepts.readOptional {read : Cursor → Outcome α} {s : Text} {a : α} (accepts : Accepts read s a) :
    Accepts (Json.readOptional read) s (some a) := by
  refine .of_passed accepts.opens fun k rest place ends passed => ?_
  obtain ⟨c, tail, rfl, opens⟩ := accepts.opens
  rw [Json.readOptional, passed]
  split
  · rename_i null
    cases null
    cases opens
  · exact (accepts.reads_here ends place).map fun _ => rfl

/-! ### Values in fields -/

theorem Accepts.field {name : Text} {get : δ → Option β} {set : δ → β → δ} {read : Cursor → Outcome β} {v : Text} {b : β}
    (accepts : Accepts read v b) (d : δ) : Accepts ((Field.of name get set read).read d) v (set d b) where
  opens := accepts.opens
  reads gap rest place blank ends := (accepts.reads gap rest place blank ends).map fun _ => rfl

/-! ### Printed values -/

/-- A reader reads a printed value, on whatever level it stands, as what it shows. -/
def Shows (read : Cursor → Outcome α) (v : Value) (a : α) : Prop := ∀ level, Accepts read (v.printAt level) a

theorem shows_number {n : Nat} (fits : n ≤ significandLimit) : Shows readNat (.number n) n := fun level => by
  rw [Value.printAt]
  exact accepts_ofNat fits

theorem shows_bool (b : Bool) : Shows readBool (.bool b) b := fun level => by
  cases b with
  | true => exact accepts_true
  | false => exact accepts_false

theorem Shows.readOptional {read : Cursor → Outcome α} {v : Value} {a : α} (shows : Shows read v a) :
    Shows (Json.readOptional read) v (some a) :=
  fun level => (shows level).readOptional

theorem Shows.field {read : Cursor → Outcome β} {v : Value} {b : β} (shows : Shows read v b) (name : Text)
    (get : δ → Option β) (set : δ → β → δ) (d : δ) : Shows ((Field.of name get set read).read d) v (set d b) :=
  fun level => (shows level).field d

end ScriptAtlas.Json
