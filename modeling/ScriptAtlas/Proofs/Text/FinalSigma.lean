import Mathlib.Data.List.Infix
import ScriptAtlas.Text.Cut
import ScriptAtlas.Text.Lowercase

/-!
Parts of a text in lower case. Only the form of a capital sigma depends on the
text around it, so a part has the same lower case form in a text as in another
one exactly if its capital sigmas have (`lowercaseBetween_eq_iff`). A beginning
of a text is lost in lower case when it ends in a capital sigma that no longer
ends a word in the whole text (`lowercase_prefix_iff`), and a part is found in
lower case wherever it stands exactly if each of its capital sigmas has around
it, in the part, what decides its form (`settled_iff`).
-/
namespace ScriptAtlas.Text

/-! ### Lower case between other texts -/

/-- The lower case form of a part of a text, between what stands before it, read
    backwards, and what stands after it. -/
def lowercaseBetween (before after : Text) : Text → Text
  | [] => []
  | c :: s =>
    (if c = 'Σ' then [lowerSigma before (s ++ after)] else lowerChar c) ++
      lowercaseBetween (c :: before) after s

theorem lowercaseFrom_append (before s t : Text) :
    lowercaseFrom before (s ++ t) = lowercaseBetween before t s ++ lowercaseFrom (s.reverse ++ before) t := by
  induction s generalizing before with
  | nil => rfl
  | cons c s ih => simp [lowercaseFrom, lowercaseBetween, ih]

theorem lowercaseBetween_nil (before s : Text) : lowercaseBetween before [] s = lowercaseFrom before s := by
  have whole := lowercaseFrom_append before s []
  rw [List.append_nil] at whole
  simp [whole, lowercaseFrom]

/-- The lower case form of a text that has a part. -/
theorem lowercase_around (u s w : Text) :
    lowercase (u ++ s ++ w) =
      lowercaseBetween [] (s ++ w) u ++ lowercaseBetween u.reverse w s ++ lowercaseFrom (s.reverse ++ u.reverse) w := by
  rw [lowercase, List.append_assoc, lowercaseFrom_append, lowercaseFrom_append, List.append_nil, List.append_assoc]

theorem lowercase_eq_between (s : Text) : lowercase s = lowercaseBetween [] [] s := by
  rw [lowercaseBetween_nil, lowercase]

/-- What stands around a part does not change the length of its lower case form. -/
theorem length_lowercaseBetween (before after before' after' s : Text) :
    (lowercaseBetween before after s).length = (lowercaseBetween before' after' s).length := by
  induction s generalizing before before' with
  | nil => rfl
  | cons c s ih =>
    rw [lowercaseBetween, lowercaseBetween, List.length_append, List.length_append, ih (c :: before) (c :: before')]
    split <;> rfl

/-- A part has the same lower case form in two places if its capital sigmas have. -/
theorem lowercaseBetween_eq_iff {before after before' after' s : Text} :
    lowercaseBetween before after s = lowercaseBetween before' after' s ↔
      ∀ u v, s = u ++ 'Σ' :: v →
        lowerSigma (u.reverse ++ before) (v ++ after) = lowerSigma (u.reverse ++ before') (v ++ after') := by
  induction s generalizing before before' with
  | nil => simp [lowercaseBetween]
  | cons c s ih =>
    rw [lowercaseBetween, lowercaseBetween, forall_divided_cons_iff]
    by_cases sigma : c = 'Σ'
    · simp [sigma, ih]
    · simp [sigma, ih]

/-! ### What decides the form of a capital sigma -/

theorem reachesLetter_append (s t : Text) :
    reachesLetter (s ++ t) = if s.all isCaseIgnorable then reachesLetter t else reachesLetter s := by
  induction s with
  | nil => rfl
  | cons c s ih =>
    cases passed : isCaseIgnorable c with
    | true => simpa [reachesLetter, passed] using ih
    | false => simp [reachesLetter, passed]

/-- Where everything is passed over no letter is reached. -/
theorem reachesLetter_of_all {s : Text} (passed : s.all isCaseIgnorable = true) : reachesLetter s = false := by
  have whole := reachesLetter_append s []
  rwa [List.append_nil, if_pos passed] at whole

theorem lowerSigma_eq_iff {before after before' after' : Text} :
    lowerSigma before after = lowerSigma before' after' ↔
      (reachesLetter before && !reachesLetter after) = (reachesLetter before' && !reachesLetter after') := by
  rw [lowerSigma, lowerSigma]
  cases reachesLetter before && !reachesLetter after <;>
    cases reachesLetter before' && !reachesLetter after' <;> decide

/-- A text after a capital sigma changes its form when a word that seemed to end
    there goes on. -/
theorem lowerSigma_append_iff {before v r : Text} :
    lowerSigma before v = lowerSigma before (v ++ r) ↔
      ¬ (reachesLetter before = true ∧ v.all isCaseIgnorable = true ∧ reachesLetter r = true) := by
  rw [lowerSigma_eq_iff, reachesLetter_append]
  cases passed : v.all isCaseIgnorable with
  | true => simp [reachesLetter_of_all passed]
  | false => simp

/-! ### Beginnings of a text -/

theorem eq_append_cons_iff {s u v : Text} {c : Char} :
    s = u ++ c :: v ↔ s[u.length]? = some c ∧ s.take u.length = u ∧ s.drop (u.length + 1) = v := by
  constructor
  · rintro rfl
    simp
  · rintro ⟨here, before, after⟩
    obtain ⟨inside, here⟩ := List.getElem?_eq_some_iff.mp here
    rw [← after, ← here, ← List.drop_eq_getElem_cons inside]
    nth_rewrite 1 [← before]
    exact (List.take_append_drop _ s).symm

/-- A text ends a word with a capital sigma: a letter comes before it, and what
    follows it is passed over. -/
def EndsInSigma (s : Text) : Prop :=
  ∃ u v, s = u ++ 'Σ' :: v ∧ reachesLetter u.reverse = true ∧ v.all isCaseIgnorable = true

theorem endsInSigma_iff {s : Text} : EndsInSigma s ↔ ∃ i < s.length, s[i]? = some 'Σ' ∧
    reachesLetter (s.take i).reverse = true ∧ (s.drop (i + 1)).all isCaseIgnorable = true := by
  constructor
  · rintro ⟨u, v, split, letter, passed⟩
    obtain ⟨here, before, after⟩ := eq_append_cons_iff.mp split
    refine ⟨u.length, (List.getElem?_eq_some_iff.mp here).1, here, ?_, ?_⟩
    · rwa [before]
    · rwa [after]
  · rintro ⟨i, inside, here, letter, passed⟩
    have length : (s.take i).length = i := List.length_take_of_le (Nat.le_of_lt inside)
    refine ⟨s.take i, s.drop (i + 1), eq_append_cons_iff.mpr ?_, letter, passed⟩
    rw [length]
    exact ⟨here, rfl, rfl⟩

instance (s : Text) : Decidable (EndsInSigma s) := decidable_of_iff _ endsInSigma_iff.symm

/-- A beginning of a text is one in lower case too, unless it ends in a capital
    sigma and the text continues the word. -/
theorem lowercase_prefix_iff {p r : Text} :
    lowercase p <+: lowercase (p ++ r) ↔ ¬ (EndsInSigma p ∧ reachesLetter r = true) := by
  have same : lowercase p <+: lowercase (p ++ r) ↔ lowercaseBetween [] [] p = lowercaseBetween [] r p := by
    rw [lowercase_eq_between, lowercase, lowercaseFrom_append]
    constructor
    · intro begins
      have within := List.prefix_of_prefix_length_le begins (List.prefix_append _ _)
        (Nat.le_of_eq (length_lowercaseBetween [] [] [] r p))
      exact within.eq_of_length (length_lowercaseBetween [] [] [] r p)
    · intro equal
      rw [equal]
      exact List.prefix_append _ _
  rw [same, lowercaseBetween_eq_iff]
  constructor
  · rintro all ⟨⟨u, v, split, letter, passed⟩, continues⟩
    have form := all u v split
    rw [List.append_nil, List.append_nil, lowerSigma_append_iff] at form
    exact form ⟨letter, passed, continues⟩
  · intro ends u v split
    rw [List.append_nil, List.append_nil, lowerSigma_append_iff]
    rintro ⟨letter, passed, continues⟩
    exact ends ⟨⟨u, v, split, letter, passed⟩, continues⟩

/-! ### Parts of a text -/

/-- What stands around a capital sigma decides its form, whatever stands around
    that: a letter follows it, or else characters that are not passed over stand
    on both sides or at least one that is no letter comes before it. -/
def Settles (u v : Text) : Prop :=
  reachesLetter v = true ∨
    u.all isCaseIgnorable = false ∧ (v.all isCaseIgnorable = false ∨ reachesLetter u.reverse = false)

/-- Every capital sigma of a text has its form from the text itself. -/
def Settled (s : Text) : Prop := ∀ u v, s = u ++ 'Σ' :: v → Settles u v

instance (u v : Text) : Decidable (Settles u v) := inferInstanceAs (Decidable (_ ∨ _))

theorem settled_iff_getElem? {s : Text} : Settled s ↔
    ∀ i < s.length, s[i]? = some 'Σ' → Settles (s.take i) (s.drop (i + 1)) := by
  constructor
  · intro settled i inside here
    have length : (s.take i).length = i := List.length_take_of_le (Nat.le_of_lt inside)
    refine settled _ _ (eq_append_cons_iff.mpr ?_)
    rw [length]
    exact ⟨here, rfl, rfl⟩
  · intro settles u v split
    obtain ⟨here, before, after⟩ := eq_append_cons_iff.mp split
    have settled := settles u.length (List.getElem?_eq_some_iff.mp here).1 here
    rwa [before, after] at settled

instance (s : Text) : Decidable (Settled s) := decidable_of_iff _ settled_iff_getElem?.symm

theorem Settles.lowerSigma_eq {u v : Text} (settles : Settles u v) (before after : Text) :
    lowerSigma u.reverse v = lowerSigma (u.reverse ++ before) (v ++ after) := by
  rw [lowerSigma_eq_iff, reachesLetter_append, reachesLetter_append, List.all_reverse]
  rcases settles with letter | ⟨stop, rest⟩
  · have stop : v.all isCaseIgnorable = false := by
      rw [Bool.eq_false_iff]
      intro passed
      rw [reachesLetter_of_all passed] at letter
      cases letter
    simp [stop, letter]
  · rcases rest with after | plain
    · simp [stop, after]
    · simp [stop, plain]

/-- A text whose capital sigmas are settled is a part in lower case wherever it is a part. -/
theorem Settled.lowercase_infix {k s : Text} (settled : Settled k) (part : k <:+: s) : lowercase k <:+: lowercase s := by
  obtain ⟨u, w, rfl⟩ := part
  have same : lowercaseBetween [] [] k = lowercaseBetween u.reverse w k := by
    rw [lowercaseBetween_eq_iff]
    intro a b split
    rw [List.append_nil, List.append_nil]
    exact (settled a b split).lowerSigma_eq _ _
  rw [lowercase_around, lowercase_eq_between k, same]
  exact ⟨_, _, rfl⟩

section
variable {α : Type} {l m : List α} {x : α}

/-- A list that is part of another one of its length with one more item in front is
    that other one, unless it begins with this item. -/
theorem eq_of_infix_cons (same : l.length = m.length) (other : l.head? ≠ some x) (part : l <:+: x :: m) : l = m := by
  rcases List.infix_cons_iff.mp part with begins | inside
  · cases l with
    | nil => exact (List.length_eq_zero_iff.mp same.symm).symm
    | cons y l =>
      obtain ⟨rfl, -⟩ := List.cons_prefix_cons.mp begins
      exact absurd rfl other
  · exact inside.eq_of_length same

theorem eq_of_infix_concat (same : l.length = m.length) (other : l.getLast? ≠ some x) (part : l <:+: m ++ [x]) :
    l = m := by
  have backwards : l.reverse <:+: x :: m.reverse := by
    rw [← List.reverse_infix, List.reverse_append] at part
    exact part
  have lengths : l.reverse.length = m.reverse.length := by rw [List.length_reverse, List.length_reverse, same]
  have equal := eq_of_infix_cons lengths (by rwa [List.head?_reverse]) backwards
  exact List.reverse_injective equal

end

/-- There is a small letter that is not a given one, and every letter continues a word. -/
theorem exists_letter (o : Option Char) :
    ∃ x, o ≠ some x ∧ lowercase [x] = [x] ∧ x ≠ 'Σ' ∧ ∀ s, reachesLetter (x :: s) = true := by
  have letters : ∀ x, x = 'a' ∨ x = 'b' → lowercase [x] = [x] ∧ x ≠ 'Σ' ∧ ∀ s, reachesLetter (x :: s) = true := by
    intro x small
    have counts : isCaseIgnorable x = false ∧ isCased x = true ∧ lowercase [x] = [x] ∧ x ≠ 'Σ' := by
      rcases small with rfl | rfl <;> decide +kernel
    exact ⟨counts.2.2.1, counts.2.2.2, fun s => by simp [reachesLetter, counts.1, counts.2.1]⟩
  by_cases first : o = some 'a'
  · exact ⟨'b', by rw [first]; decide, letters 'b' (.inr rfl)⟩
  · exact ⟨'a', first, letters 'a' (.inl rfl)⟩

/-- If what stands before a capital sigma of a text decides nothing, and no letter
    follows it, a letter before the text changes its lower case form. -/
theorem exists_lost_before {u v k : Text} (split : k = u ++ 'Σ' :: v) (passed : u.all isCaseIgnorable = true)
    (ends : reachesLetter v = false) : ∃ s, k <:+: s ∧ ¬ lowercase k <:+: lowercase s := by
  obtain ⟨x, other, plain, notSigma, letter⟩ := exists_letter (lowercase k).head?
  refine ⟨x :: k, List.infix_cons List.infix_rfl, fun part => ?_⟩
  have whole : lowercase (x :: k) = x :: lowercaseBetween [x] [] k := by
    rw [lowercaseBetween_nil, lowercase, lowercaseFrom, if_neg notSigma]
    rw [lowercase, lowercaseFrom, if_neg notSigma, lowercaseFrom, List.append_nil] at plain
    rw [plain, List.singleton_append]
  rw [whole, lowercase_eq_between] at part
  rw [lowercase_eq_between] at other
  have same := eq_of_infix_cons (length_lowercaseBetween ..) other part
  have form := lowercaseBetween_eq_iff.mp same u v split
  have silent : reachesLetter u.reverse = false := reachesLetter_of_all (by rwa [List.all_reverse])
  rw [List.append_nil, List.append_nil, lowerSigma_eq_iff, reachesLetter_append, List.all_reverse, if_pos passed,
    silent, ends, letter] at form
  cases form

/-- If a capital sigma ends a word in a text and what follows it decides nothing, a
    letter after the text changes its lower case form. -/
theorem exists_lost_after {u v k : Text} (split : k = u ++ 'Σ' :: v) (passed : v.all isCaseIgnorable = true)
    (letter : reachesLetter u.reverse = true) : ∃ s, k <:+: s ∧ ¬ lowercase k <:+: lowercase s := by
  obtain ⟨x, other, plain, notSigma, continues⟩ := exists_letter (lowercase k).getLast?
  refine ⟨k ++ [x], (List.prefix_append k [x]).isInfix, fun part => ?_⟩
  have whole : lowercase (k ++ [x]) = lowercaseBetween [] [x] k ++ [x] := by
    rw [lowercase, lowercaseFrom_append, lowercaseFrom, if_neg notSigma]
    rw [lowercase, lowercaseFrom, if_neg notSigma, lowercaseFrom, List.append_nil] at plain
    rw [plain, lowercaseFrom, List.append_nil]
  rw [whole, lowercase_eq_between] at part
  rw [lowercase_eq_between] at other
  have same := eq_of_infix_concat (length_lowercaseBetween ..) other part
  have form := lowercaseBetween_eq_iff.mp same u v split
  rw [List.append_nil, List.append_nil, lowerSigma_append_iff] at form
  exact form ⟨letter, passed, continues []⟩

/-- The capital sigmas of a text are settled exactly if its lower case form is part
    of the lower case form of every text of which it is part. -/
theorem settled_iff {k : Text} : Settled k ↔ ∀ s, k <:+: s → lowercase k <:+: lowercase s := by
  constructor
  · exact fun settled s part => settled.lowercase_infix part
  · intro found u v split
    have kept : ¬ ∃ s, k <:+: s ∧ ¬ lowercase k <:+: lowercase s := fun ⟨s, part, lost⟩ => lost (found s part)
    cases ends : reachesLetter v with
    | true => exact .inl ends
    | false =>
      right
      refine ⟨Bool.eq_false_iff.mpr fun passed => kept (exists_lost_before split passed ends), ?_⟩
      cases passed : v.all isCaseIgnorable with
      | false => exact .inl rfl
      | true =>
        right
        exact Bool.eq_false_iff.mpr fun letter => kept (exists_lost_after split passed letter)

end ScriptAtlas.Text
