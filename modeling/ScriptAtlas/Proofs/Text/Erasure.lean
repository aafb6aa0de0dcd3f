import Mathlib.Data.List.Basic
import ScriptAtlas.Text.Blank
import ScriptAtlas.Text.Cut

/-!
What is left of a text without a pattern or without some characters. A text is the
pattern and a rest, or a character at which the pattern does not stand and a rest,
until nothing is left (`erase_induction`). From this follows when all of a text goes
(`erase_eq_nil_iff`) and which of its characters come to stand at the ends of what
is left (`head?_erase_iff`, `getLast?_erase_iff`).
-/
namespace ScriptAtlas.Text

variable {pattern s : Text} {c : Char}

theorem eraseFrom_skip (pattern : Text) (skip : Nat) (s : Text) :
    eraseFrom pattern skip s = erase pattern (s.drop skip) := by
  induction skip generalizing s with
  | zero => rfl
  | succ skip ih =>
    cases s with
    | nil => rfl
    | cons x s => rw [eraseFrom, ih, List.drop_succ_cons]

theorem erase_append (full : pattern ≠ []) (s : Text) : erase pattern (pattern ++ s) = erase pattern s := by
  obtain ⟨x, rest, rfl⟩ := List.exists_cons_of_ne_nil full
  have opens : (x :: rest).isPrefixOf (x :: (rest ++ s)) = true := by
    rw [List.isPrefixOf_iff_prefix]
    exact List.prefix_append (x :: rest) s
  rw [List.cons_append, erase, eraseFrom, if_pos opens, eraseFrom_skip]
  congr 1
  exact List.drop_left

theorem erase_cons {x : Char} (other : ¬ pattern <+: x :: s) : erase pattern (x :: s) = x :: erase pattern s := by
  rw [← List.isPrefixOf_iff_prefix] at other
  rw [erase, eraseFrom, if_neg other]
  rfl

/-- Induction along a text from one occurrence of a pattern to the next. -/
theorem erase_induction (full : pattern ≠ []) {motive : Text → Prop} (nil : motive [])
    (found : ∀ s, motive s → motive (pattern ++ s))
    (other : ∀ x s, ¬ pattern <+: x :: s → motive s → motive (x :: s)) (s : Text) : motive s := by
  induction size : s.length using Nat.strongRecOn generalizing s with
  | ind n ih =>
    cases s with
    | nil => exact nil
    | cons x s =>
      by_cases opens : pattern <+: x :: s
      · obtain ⟨rest, whole⟩ := opens
        have shorter : rest.length < n := by
          rw [← size, ← whole, List.length_append]
          exact Nat.lt_add_of_pos_left (List.length_pos_iff.mpr full)
        rw [← whole]
        exact found rest (ih _ shorter rest rfl)
      · exact other x s opens (ih s.length (size ▸ Nat.lt_succ_self _) s rfl)

theorem repeated_succ (times : Nat) (s : Text) : repeated (times + 1) s = s ++ repeated times s := by
  rw [repeated, repeated, List.replicate_succ, List.flatten_cons]

/-- A character that is not in the pattern stays. -/
theorem mem_erase_iff (full : pattern ≠ []) (other : c ∉ pattern) : c ∈ erase pattern s ↔ c ∈ s := by
  induction s using erase_induction full with
  | nil => rfl
  | found s ih => rw [erase_append full, ih, List.mem_append, or_iff_right other]
  | other x s apart ih => rw [erase_cons apart, List.mem_cons, List.mem_cons, ih]

/-- Nothing is left of a text exactly if it is the pattern some number of times over. -/
theorem erase_eq_nil_iff (full : pattern ≠ []) : erase pattern s = [] ↔ ∃ times, s = repeated times pattern := by
  constructor
  · induction s using erase_induction full with
    | nil => exact fun _ => ⟨0, rfl⟩
    | found s ih =>
      intro empty
      rw [erase_append full] at empty
      obtain ⟨times, again⟩ := ih empty
      exact ⟨times + 1, by rw [repeated_succ, ← again]⟩
    | other x s apart ih =>
      intro empty
      rw [erase_cons apart] at empty
      cases empty
  · rintro ⟨times, rfl⟩
    induction times with
    | zero => rfl
    | succ times ih => rw [repeated_succ, erase_append full, ih]

/-! ### The ends of what is left -/

/-- What is left begins with a character that follows the occurrences at the
    beginning of the text. -/
theorem head?_erase_iff (full : pattern ≠ []) (other : pattern.head? ≠ some c) :
    (erase pattern s).head? = some c ↔ ∃ times r, s = repeated times pattern ++ c :: r := by
  constructor
  · induction s using erase_induction full with
    | nil =>
      intro impossible
      cases impossible
    | found s ih =>
      intro first
      rw [erase_append full] at first
      obtain ⟨times, r, split⟩ := ih first
      exact ⟨times + 1, r, by rw [repeated_succ, split, List.append_assoc]⟩
    | other x s apart ih =>
      intro first
      rw [erase_cons apart, List.head?_cons, Option.some.injEq] at first
      exact ⟨0, s, by rw [first]; rfl⟩
  · rintro ⟨times, r, rfl⟩
    have apart : ¬ pattern <+: c :: r := by
      rintro ⟨rest, whole⟩
      obtain ⟨x, tail, rfl⟩ := List.exists_cons_of_ne_nil full
      rw [List.cons_append, List.cons.injEq] at whole
      exact other (by rw [List.head?_cons, whole.1])
    induction times with
    | zero =>
      show (erase pattern (c :: r)).head? = _
      rw [erase_cons apart, List.head?_cons]
    | succ times ih => rw [repeated_succ, List.append_assoc, erase_append full, ih]

/-- No end of a pattern is its beginning, so two occurrences never overlap. -/
def IsUnbordered (pattern : Text) : Prop := ∀ i < pattern.length, 0 < i → ¬ pattern.drop i <+: pattern

instance (pattern : Text) : Decidable (IsUnbordered pattern) :=
  inferInstanceAs (Decidable (∀ i < pattern.length, 0 < i → ¬ pattern.drop i <+: pattern))

/-- An occurrence at the beginning of a text does not reach into occurrences that follow. -/
theorem IsUnbordered.not_prefix_append (apart : IsUnbordered pattern) (full : s ≠ []) (other : ¬ pattern <+: s)
    (times : Nat) : ¬ pattern <+: s ++ repeated times pattern := by
  intro opens
  rcases List.prefix_or_prefix_of_prefix opens (List.prefix_append s _) with inside | ⟨rest, whole⟩
  · exact other inside
  · cases rest with
    | nil => exact other ⟨[], by rw [← whole, List.append_nil, List.append_nil]⟩
    | cons x rest =>
      have last : pattern.drop s.length = x :: rest := by rw [← whole, List.drop_left]
      have size : pattern.length = s.length + (x :: rest).length := by rw [← whole, List.length_append]
      have onwards : x :: rest <+: repeated times pattern := by
        obtain ⟨after, split⟩ := opens
        rw [← whole, List.append_assoc] at split
        exact ⟨after, List.append_cancel_left (by rw [split, whole])⟩
      cases times with
      | zero => cases List.prefix_nil.mp onwards
      | succ times =>
        rw [repeated_succ] at onwards
        have border : x :: rest <+: pattern :=
          List.prefix_of_prefix_length_le onwards (List.prefix_append pattern _) (by omega)
        refine apart s.length ?_ (List.length_pos_iff.mpr full) (last ▸ border)
        rw [size, List.length_cons]
        omega

/-- An occurrence at the end of a text that follows an occurrence stands in the text. -/
theorem IsUnbordered.suffix_of_append (apart : IsUnbordered pattern) (full : s ≠ [])
    (ends : pattern <:+ pattern ++ s) : pattern <:+ s := by
  rcases List.suffix_or_suffix_of_suffix ends (List.suffix_append pattern s) with inside | shorter
  · exact inside
  · obtain ⟨before, split⟩ := ends
    have size : before.length = s.length := by
      have sizes := congrArg List.length split
      rw [List.length_append, List.length_append] at sizes
      omega
    rcases Nat.eq_or_lt_of_le shorter.length_le with equal | less
    · exact ⟨[], (shorter.eq_of_length equal).symm⟩
    · -- Moved by the length of `s`, the pattern stands on itself.
      have moved : pattern.drop s.length ++ s = pattern := by
        rw [← List.drop_append_of_le_length (Nat.le_of_lt less), ← split, ← size, List.drop_left]
      exact absurd ⟨s, moved⟩ (apart s.length less (List.length_pos_iff.mpr full))

/-- What follows the last character that is left is the pattern some number of times over. -/
theorem getLast?_erase_append (apart : IsUnbordered pattern) (full : pattern ≠ []) (ends : ¬ pattern <:+ s)
    (times : Nat) : (erase pattern (s ++ repeated times pattern)).getLast? = s.getLast? := by
  induction s using erase_induction full with
  | nil =>
    have empty : erase pattern (repeated times pattern) = [] := (erase_eq_nil_iff full).mpr ⟨times, rfl⟩
    rw [List.nil_append, empty]
  | found s ih =>
    have inner : ¬ pattern <:+ s := fun inside => ends (inside.trans (List.suffix_append pattern s))
    cases s with
    | nil => exact absurd ⟨[], (List.append_nil pattern).symm⟩ ends
    | cons x s => rw [List.append_assoc, erase_append full, ih inner, List.getLast?_append_of_ne_nil _ (List.cons_ne_nil x s)]
  | other x s opens ih =>
    have inner : ¬ pattern <:+ s := fun inside => ends (inside.trans (List.suffix_cons x s))
    have free := apart.not_prefix_append (List.cons_ne_nil x s) opens times
    rw [List.cons_append] at free ⊢
    rw [erase_cons free, List.getLast?_cons, ih inner, List.getLast?_cons]

theorem getLast?_erase_iff (apart : IsUnbordered pattern) (full : pattern ≠ []) :
    (erase pattern s).getLast? = some c ↔
      ∃ l times, s = l ++ c :: repeated times pattern ∧ ¬ pattern <:+ l ++ [c] := by
  constructor
  · induction s using erase_induction full with
    | nil =>
      intro impossible
      cases impossible
    | found s ih =>
      intro last
      rw [erase_append full] at last
      obtain ⟨l, times, split, ends⟩ := ih last
      refine ⟨pattern ++ l, times, by rw [split, List.append_assoc], fun inside => ends ?_⟩
      rw [List.append_assoc] at inside
      exact apart.suffix_of_append (by simp) inside
    | other x s opens ih =>
      intro last
      rw [erase_cons opens, List.getLast?_cons, Option.some.injEq] at last
      cases rest : (erase pattern s).getLast? with
      | none =>
        rw [rest, Option.getD_none] at last
        obtain ⟨times, whole⟩ := (erase_eq_nil_iff full).mp (List.getLast?_eq_none_iff.mp rest)
        refine ⟨[], times, by rw [last, whole]; rfl, fun inside => ?_⟩
        rcases List.suffix_cons_iff.mp inside with whole | none
        · rw [last] at opens
          exact opens ⟨s, by rw [whole]; rfl⟩
        · exact full (List.suffix_nil.mp none)
      | some d =>
        rw [rest, Option.getD_some] at last
        obtain ⟨l, times, split, ends⟩ := ih (last ▸ rest)
        refine ⟨x :: l, times, by rw [split]; rfl, fun inside => ?_⟩
        rcases List.suffix_cons_iff.mp inside with whole | inner
        · refine opens ⟨repeated times pattern, ?_⟩
          calc pattern ++ repeated times pattern = x :: (l ++ [c]) ++ repeated times pattern :=
                congrArg (· ++ repeated times pattern) whole
            _ = x :: s := by rw [split, List.cons_append, List.append_assoc, List.singleton_append]
        · exact ends inner
  · rintro ⟨l, times, rfl, ends⟩
    have moved : l ++ c :: repeated times pattern = (l ++ [c]) ++ repeated times pattern := by
      rw [List.append_assoc, List.singleton_append]
    rw [moved, getLast?_erase_append apart full ends, List.getLast?_concat]

theorem hasShownEnds_iff :
    HasShownEnds s ↔ ∀ c, isBlank c = true → s.head? ≠ some c ∧ s.getLast? ≠ some c := by
  constructor
  · rintro ⟨first, last⟩ c blank
    refine ⟨fun here => ?_, fun here => ?_⟩
    · rw [first c here] at blank
      cases blank
    · rw [last c here] at blank
      cases blank
  · intro apart
    exact ⟨fun c here => Bool.eq_false_iff.mpr fun blank => (apart c blank).1 here,
      fun c here => Bool.eq_false_iff.mpr fun blank => (apart c blank).2 here⟩

/-- What is left has no blank ends exactly if no blank character follows the
    occurrences at the beginning of the text, and none that is not part of an
    occurrence precedes those at its end. -/
theorem hasShownEnds_erase_iff (apart : IsUnbordered pattern) (full : pattern ≠ [])
    (shown : pattern.head?.any isBlank = false) :
    HasShownEnds (erase pattern s) ↔ ∀ l c r, s = l ++ c :: r → isBlank c = true →
      (∀ times, l ≠ repeated times pattern) ∧ (pattern <:+ l ++ [c] ∨ ∀ times, r ≠ repeated times pattern) := by
  have other : ∀ c, isBlank c = true → pattern.head? ≠ some c := fun c blank first => by
    rw [first, Option.any_some, blank] at shown
    cases shown
  rw [hasShownEnds_iff]
  constructor
  · intro ends l c r split blank
    obtain ⟨first, last⟩ := ends c blank
    rw [ne_eq, head?_erase_iff full (other c blank)] at first
    rw [ne_eq, getLast?_erase_iff apart full] at last
    refine ⟨fun times again => first ⟨times, r, again ▸ split⟩, ?_⟩
    by_cases inside : pattern <:+ l ++ [c]
    · exact Or.inl inside
    · exact Or.inr fun times again => last ⟨l, times, again ▸ split, inside⟩
  · intro inner c blank
    constructor
    · intro first
      obtain ⟨times, r, split⟩ := (head?_erase_iff full (other c blank)).mp first
      exact (inner _ c r split blank).1 times rfl
    · intro last
      obtain ⟨l, times, split, ends⟩ := (getLast?_erase_iff apart full).mp last
      rcases (inner l c _ split blank).2 with inside | distinct
      · exact ends inside
      · exact distinct times rfl

/-! ### Texts without some characters -/

variable {cs : List Char}

theorem without_singleton (c : Char) (s : Text) : without [c] s = s.filter (· != c) := by
  refine List.filter_congr fun d _ => ?_
  rw [List.contains_cons, List.contains_nil, Bool.or_false, bne]

theorem without_ne_nil_iff : without cs s ≠ [] ↔ ∃ c ∈ s, c ∉ cs := by
  rw [ne_eq, without, List.filter_eq_nil_iff]
  simp

theorem head?_without_iff :
    (without cs s).head? = some c ↔ c ∉ cs ∧ ∃ l r, s = l ++ c :: r ∧ ∀ d ∈ l, d ∈ cs := by
  rw [without, List.head?_filter, List.find?_eq_some_iff_append]
  simp

theorem getLast?_without_iff :
    (without cs s).getLast? = some c ↔ c ∉ cs ∧ ∃ l r, s = l ++ c :: r ∧ ∀ d ∈ r, d ∈ cs := by
  have backwards : (without cs s).getLast? = (without cs s.reverse).head? := by
    rw [without, without, List.filter_reverse, List.head?_reverse]
  rw [backwards, head?_without_iff]
  refine and_congr_right fun _ => ⟨?_, ?_⟩
  · rintro ⟨l, r, split, inside⟩
    refine ⟨r.reverse, l.reverse, ?_, fun d member => inside d (List.mem_reverse.mp member)⟩
    rw [← List.reverse_inj, split]
    simp
  · rintro ⟨l, r, rfl, inside⟩
    exact ⟨r.reverse, l.reverse, by simp, fun d member => inside d (List.mem_reverse.mp member)⟩

/-- A text without some characters has no blank ends exactly if every blank
    character of the text stands between characters that are kept. -/
theorem hasShownEnds_without_iff (shown : cs.any isBlank = false) :
    HasShownEnds (without cs s) ↔ ∀ l c r, s = l ++ c :: r → isBlank c = true →
      (∃ d ∈ l, d ∉ cs) ∧ ∃ d ∈ r, d ∉ cs := by
  rw [hasShownEnds_iff]
  constructor
  · intro ends l c r split blank
    have kept : c ∉ cs := fun member => List.any_eq_false.mp shown c member blank
    obtain ⟨first, last⟩ := ends c blank
    rw [ne_eq, head?_without_iff] at first
    rw [ne_eq, getLast?_without_iff] at last
    constructor
    · by_contra none
      push Not at none
      exact first ⟨kept, l, r, split, none⟩
    · by_contra none
      push Not at none
      exact last ⟨kept, l, r, split, none⟩
  · intro inner c blank
    constructor
    · intro first
      obtain ⟨-, l, r, split, inside⟩ := head?_without_iff.mp first
      obtain ⟨⟨d, member, other⟩, -⟩ := inner l c r split blank
      exact other (inside d member)
    · intro last
      obtain ⟨-, l, r, split, inside⟩ := getLast?_without_iff.mp last
      obtain ⟨-, d, member, other⟩ := inner l c r split blank
      exact other (inside d member)

end ScriptAtlas.Text
