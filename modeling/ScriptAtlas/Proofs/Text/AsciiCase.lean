import Mathlib.Data.List.Basic
import ScriptAtlas.Text.Cut
import ScriptAtlas.Text.Lowercase

/-!
Words of ASCII letters in texts of any letters. The lower case form of a text is
made from all of Unicode, and two characters outside ASCII come out as ASCII
letters: the Kelvin sign as `k`, and the dotted capital I as an `i` that keeps
its dot. So a word without `k` that does not end in `i` stands at the beginning of
the lower case form only if it stands at the beginning of the text itself, in
ASCII letters of either case (`isPrefixOf_lowercase_iff`).
-/
namespace ScriptAtlas.Text

/-! ### Characters of either case -/

/-- The letters that have another form in lower case, as far as ASCII goes. -/
def capitals : Text := "ABCDEFGHIJKLMNOPQRSTUVWXYZ".toList

theorem mem_capitals {c : Char} (low : 65 ≤ c.toNat) (high : c.toNat ≤ 90) : c ∈ capitals := by
  have table : ∀ k < 26, Char.ofNat (65 + k) ∈ capitals := by decide
  have member := table (c.toNat - 65) (by omega)
  have code : 65 + (c.toNat - 65) = c.toNat := by omega
  rwa [code, Char.ofNat_toNat] at member

/-- What is the same of both forms of each ASCII letter does not depend on case. -/
theorem apply_toLower {β : Type} {f : Char → β} (letters : capitals.map (f ·.toLower) = capitals.map f) (c : Char) :
    f c.toLower = f c := by
  by_cases upper : 65 ≤ c.toNat ∧ c.toNat ≤ 90
  · exact List.map_inj_left.mp letters c (mem_capitals upper.1 upper.2)
  · have kept : c.toLower = c := by
      unfold Char.toLower
      exact dif_neg upper
    rw [kept]

theorem toLower_toLower (c : Char) : c.toLower.toLower = c.toLower :=
  apply_toLower (f := Char.toLower) (by decide) c

/-! ### Characters outside ASCII -/

theorem toLower_of_wide {c : Char} (wide : 128 ≤ c.toNat) : c.toLower = c := by
  unfold Char.toLower
  split
  · rename_i upper
    have small : c.toNat ≤ 90 := upper.2
    omega
  · rfl

/-- Only letters have another character as their lower case form. -/
theorem eq_of_toLower_eq {c d : Char} (mark : d.isLower = false) (same : c.toLower = d) : c = d := by
  unfold Char.toLower at same
  split at same
  · rename_i upper
    have low : 65 ≤ c.toNat := upper.1
    have high : c.toNat ≤ 90 := upper.2
    have code : d.toNat = c.toNat + 32 := by
      rw [← same]
      show (c.val + ('a'.val - 'A'.val)).toNat = c.val.toNat + 32
      rw [UInt32.toNat_add]
      exact Nat.mod_eq_of_lt (show c.toNat + 32 < 2 ^ 32 by omega)
    have letter : d.isLower = true :=
      Bool.and_eq_true_iff.mpr
        ⟨decide_eq_true (show 97 ≤ d.toNat by omega), decide_eq_true (show d.toNat ≤ 122 by omega)⟩
    rw [letter] at mark
    cases mark
  · exact same

/-- A character that is no ASCII letter is the lower case form of itself alone. -/
theorem toLower_eq_iff {c d : Char} (mark : d.isAlpha = false) : c.toLower = d ↔ c = d := by
  obtain ⟨capital, small⟩ := Bool.or_eq_false_iff.mp mark
  constructor
  · exact eq_of_toLower_eq small
  · rintro rfl
    unfold Char.toLower
    exact dif_neg (of_decide_eq_false capital)

theorem toLower_beq {c d : Char} (mark : d.isAlpha = false) : (c.toLower == d) = (c == d) := by
  rw [Bool.eq_iff_iff, beq_iff_eq, beq_iff_eq]
  exact toLower_eq_iff mark

/-- A run of the lower case table leads to characters outside ASCII, except for
    the Kelvin sign. -/
theorem image_of_mem_runs : ∀ run ∈ Lowercase.runs,
    (128 ≤ run.image ∨ run.first = run.last ∧ run.image = 'k'.toNat) ∧
      (run.image + (run.last - run.first) < 0xD800 ∨
        0xDFFF < run.image ∧ run.image + (run.last - run.first) < 0x110000) := by
  decide +kernel

/-- A character outside ASCII has a lower case form outside ASCII, or it is the Kelvin sign. -/
theorem exists_lowerWide {c : Char} (wide : 128 ≤ c.toNat) (dotless : c ≠ 'İ') :
    ∃ d, lowerWide c = [d] ∧ (128 ≤ d.toNat ∨ d = 'k') := by
  rw [lowerWide, if_neg dotless]
  cases found : Lowercase.runs.find? (·.has c.toNat) with
  | none => exact ⟨c, rfl, Or.inl wide⟩
  | some run =>
    obtain ⟨image, valid⟩ := image_of_mem_runs run (List.mem_of_find?_eq_some found)
    have inside := List.find?_some found
    simp only [Lowercase.Run.has, Bool.and_eq_true, decide_eq_true_eq] at inside
    refine ⟨Char.ofNat (run.map c.toNat), rfl, ?_⟩
    have scalar : (run.map c.toNat).isValidChar := by
      unfold Nat.isValidChar Lowercase.Run.map
      omega
    rcases image with image | ⟨single, image⟩
    · left
      have code : (Char.ofNat (run.map c.toNat)).toNat = run.map c.toNat := by
        rw [Char.ofNat, dif_pos scalar]
        rfl
      rw [code, Lowercase.Run.map]
      omega
    · right
      have same : run.map c.toNat = 'k'.toNat := by
        rw [Lowercase.Run.map, image]
        omega
      rw [same]
      rfl

/-! ### Words at the beginning of a text -/

/-- A text begins with a word, up to the case of ASCII letters. -/
def BeginsWith (word s : Text) : Prop := ∃ start, start <+: s ∧ sameAscii word start = true

/-- What is no letter in a word stands as it is in a text that begins with the word. -/
theorem BeginsWith.getElem?_of_mark {word s : Text} (begins : BeginsWith word s) {i : Nat} {d : Char}
    (found : word[i]? = some d) (mark : d.isLower = false) (settled : d.toLower = d) : s[i]? = some d := by
  obtain ⟨start, ⟨rest, rfl⟩, same⟩ := begins
  have same : word.map Char.toLower = start.map Char.toLower := beq_iff_eq.mp same
  have lower : (start.map Char.toLower)[i]? = some d := by
    rw [← same, List.getElem?_map, found, Option.map_some, settled]
  obtain ⟨c, at_i, form⟩ := Option.map_eq_some_iff.mp (List.getElem?_map.symm.trans lower)
  have inside : i < start.length := (List.getElem?_eq_some_iff.mp at_i).1
  rw [List.getElem?_append_left inside, at_i, eq_of_toLower_eq mark form]

/-- A text that begins with a word spells it with the letters of the word, in either case. -/
theorem BeginsWith.map_toLower_take {word s : Text} (begins : BeginsWith word s) {i : Nat} (within : i ≤ word.length) :
    (s.take i).map Char.toLower = (word.take i).map Char.toLower := by
  obtain ⟨start, ⟨rest, rfl⟩, same⟩ := begins
  have same : word.map Char.toLower = start.map Char.toLower := beq_iff_eq.mp same
  have length : word.length = start.length := by
    rw [← List.length_map Char.toLower, same, List.length_map]
  rw [List.take_append_of_le_length (length ▸ within), List.map_take, ← same, List.map_take]

theorem BeginsWith.not_mem_take {word s : Text} (begins : BeginsWith word s) {i : Nat} (within : i ≤ word.length)
    {d : Char} (settled : d.toLower = d) (absent : d ∉ (word.take i).map Char.toLower) : d ∉ s.take i := by
  intro member
  have lower : d.toLower ∈ (s.take i).map Char.toLower := List.mem_map_of_mem member
  rw [begins.map_toLower_take within, settled] at lower
  exact absent lower

theorem BeginsWith.narrow_take {word s : Text} (begins : BeginsWith word s) {i : Nat} (within : i ≤ word.length)
    (narrow : ((word.take i).map Char.toLower).all (·.toNat < 128) = true) : ∀ c ∈ s.take i, c.toNat < 128 := by
  intro c member
  have lower : c.toLower ∈ (s.take i).map Char.toLower := List.mem_map_of_mem member
  rw [begins.map_toLower_take within] at lower
  by_contra wide
  rw [toLower_of_wide (Nat.not_lt.mp wide)] at lower
  exact wide (of_decide_eq_true (List.all_eq_true.mp narrow c lower))

/-- What is no letter in a word cuts a text that begins with the word where it
    first cuts the word. -/
theorem BeginsWith.cutAt_of_mark {word s : Text} (begins : BeginsWith word s) {i : Nat} {d : Char}
    (found : word[i]? = some d) (mark : d.isLower = false) (settled : d.toLower = d)
    (first : d ∉ (word.take i).map Char.toLower) : cutAt d s = some (s.take i, s.drop (i + 1)) := by
  have within : i ≤ word.length := Nat.le_of_lt (List.getElem?_eq_some_iff.mp found).1
  rw [cutAt_eq_some_iff]
  refine ⟨begins.not_mem_take within settled first, ?_⟩
  have at_i := begins.getElem?_of_mark found mark settled
  calc s = s.take i ++ s.drop i := (List.take_append_drop i s).symm
    _ = s.take i ++ d :: s.drop (i + 1) := by
      rw [List.drop_eq_getElem?_toList_append, at_i]
      rfl

/-- Words that only ASCII letters can spell: no Kelvin sign passes for a letter
    of the word, and no dotted capital I for its last one. -/
def isAsciiWord : Text → Bool
  | [] => true
  | c :: word =>
    decide (c.toNat < 128) && c != 'k' && c.toLower == c && !(c == 'i' && word.isEmpty) && isAsciiWord word

/-- A word that begins with an ASCII character does not stand at the beginning of
    the lower case form of a text that begins outside ASCII. -/
theorem isPrefixOf_lowercaseFrom_wide {x c : Char} {word : Text} (ascii : isAsciiWord (x :: word) = true)
    (wide : 128 ≤ c.toNat) (before s : Text) :
    (x :: word).isPrefixOf (lowercaseFrom before (c :: s)) = false := by
  simp only [isAsciiWord, Bool.and_eq_true, decide_eq_true_eq, bne_iff_ne, Bool.not_eq_true'] at ascii
  obtain ⟨⟨⟨⟨small, notK⟩, -⟩, last⟩, rest⟩ := ascii
  have apart : ∀ (d : Char) (s : Text), 128 ≤ d.toNat ∨ d = 'k' → (x :: word).isPrefixOf (d :: s) = false := by
    intro d s other
    have different : x ≠ d := by
      rintro rfl
      rcases other with wide | rfl
      · omega
      · exact notK rfl
    rw [List.isPrefixOf_cons_cons, beq_false_of_ne different, Bool.false_and]
  rw [lowercaseFrom]
  by_cases sigma : c = 'Σ'
  · rw [if_pos sigma, List.singleton_append]
    refine apart _ _ (Or.inl ?_)
    unfold lowerSigma
    split <;> decide
  · rw [if_neg sigma, lowerChar, if_neg (Nat.not_lt.mpr wide)]
    by_cases dotted : c = 'İ'
    · subst dotted
      rw [show lowerWide 'İ' = ['i', '\u0307'] from rfl, List.cons_append, List.isPrefixOf_cons_cons]
      cases word with
      | nil =>
        have different : x ≠ 'i' := by simpa using last
        rw [beq_false_of_ne different, Bool.false_and]
      | cons y word =>
        -- The dot that follows the `i` is not in the word.
        have different : y ≠ '\u0307' := by
          rintro rfl
          simp [isAsciiWord] at rest
        rw [List.cons_append, List.isPrefixOf_cons_cons, beq_false_of_ne different, Bool.false_and, Bool.and_false]
    · obtain ⟨d, form, other⟩ := exists_lowerWide wide dotted
      rw [form, List.singleton_append]
      exact apart d _ other

/-- The lower case form of a text begins with a word exactly if the text does
    once its ASCII letters are in lower case. -/
theorem isPrefixOf_lowercaseFrom {word : Text} (ascii : isAsciiWord word = true) (before s : Text) :
    word.isPrefixOf (lowercaseFrom before s) = word.isPrefixOf (s.map Char.toLower) := by
  induction word generalizing before s with
  | nil => rfl
  | cons x word ih =>
    cases s with
    | nil => rfl
    | cons c s =>
      by_cases narrow : c.toNat < 128
      · have notSigma : c ≠ 'Σ' := by
          rintro rfl
          exact absurd narrow (by decide)
        have rest : isAsciiWord word = true := (Bool.and_eq_true_iff.mp ascii).2
        rw [lowercaseFrom, List.map_cons, if_neg notSigma, lowerChar, if_pos narrow, List.singleton_append,
          List.isPrefixOf_cons_cons, List.isPrefixOf_cons_cons, ih rest]
      · have wide : 128 ≤ c.toNat := Nat.not_lt.mp narrow
        have different : x ≠ c := by
          rintro rfl
          simp only [isAsciiWord, Bool.and_eq_true, decide_eq_true_eq] at ascii
          omega
        rw [isPrefixOf_lowercaseFrom_wide ascii wide, List.map_cons, toLower_of_wide wide,
          List.isPrefixOf_cons_cons, beq_false_of_ne different, Bool.false_and]

/-- What the lower case form of a text begins with does not depend on the case of its
    ASCII letters. -/
theorem isPrefixOf_lowercase_toLower {word : Text} (ascii : isAsciiWord word = true) (s : Text) :
    word.isPrefixOf (lowercase (s.map Char.toLower)) = word.isPrefixOf (lowercase s) := by
  have settled : Char.toLower ∘ Char.toLower = Char.toLower := funext toLower_toLower
  rw [lowercase, lowercase, isPrefixOf_lowercaseFrom ascii, isPrefixOf_lowercaseFrom ascii, List.map_map, settled]

theorem map_toLower_of_isAsciiWord {word : Text} (ascii : isAsciiWord word = true) :
    word.map Char.toLower = word := by
  induction word with
  | nil => rfl
  | cons x word ih =>
    simp only [isAsciiWord, Bool.and_eq_true, beq_iff_eq] at ascii
    rw [List.map_cons, ih ascii.2, ascii.1.1.2]

/-- The lower case form of a text begins with a word exactly if the text does,
    up to the case of ASCII letters. -/
theorem isPrefixOf_lowercase_iff {word : Text} (ascii : isAsciiWord word = true) (s : Text) :
    word.isPrefixOf (lowercase s) = true ↔ BeginsWith word s := by
  rw [lowercase, isPrefixOf_lowercaseFrom ascii, List.isPrefixOf_iff_prefix, List.prefix_map_iff]
  unfold BeginsWith sameAscii
  rw [map_toLower_of_isAsciiWord ascii]
  simp

end ScriptAtlas.Text
