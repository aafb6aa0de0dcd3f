import ScriptAtlas.Proofs.Json.Quoted

/-!
Arrays against what is read from them. The elements of an array and the members
of an object may stand between any white space (`Leads`). A list reader accepts
an array of texts that the reader of its elements accepts (`Items.accepts`);
printed arrays are of this form (`shows_array`).
-/
namespace ScriptAtlas.Json

variable {α δ : Type}

/-! ### Between elements -/

/-- What stands before the first element, or before another one. -/
inductive Leads : Bool → Text → Prop
  | first {gap : Text} (blank : isGap gap = true) : Leads true gap
  | comma {before behind : Text} (blank : isGap before = true) (blank' : isGap behind = true) :
      Leads false (before ++ ',' :: behind)

theorem ends_gap {gap : Text} (blank : isGap gap = true) {c : Char} (mark : c = ',' ∨ c = ']' ∨ c = '\x7d')
    (rest : Text) : Ends (gap ++ c :: rest) := by
  intro d first
  cases gap with
  | nil =>
    cases first
    rcases mark with rfl | rfl | rfl <;> rfl
  | cons g gap =>
    cases first
    rw [isGap, List.all_cons, Bool.and_eq_true] at blank
    have space := blank.1
    simp only [isSpace, Bool.or_eq_true, beq_iff_eq] at space
    rcases space with ((rfl | rfl) | rfl) | rfl <;> rfl

theorem Leads.ends {lead : Text} (leads : Leads false lead) (rest : Text) : Ends (lead ++ rest) := by
  cases leads with
  | comma blank _ =>
    rw [List.append_assoc]
    exact ends_gap blank (.inl rfl) _

theorem exists_pass_comma {before behind : Text} (blank : isGap before = true) (blank' : isGap behind = true) {c : Char}
    (ink : isSpace c = false) (rest : Text) (place : Place) :
    ∃ middle reached,
      Cursor.passSpace ⟨before ++ ',' :: behind ++ c :: rest, place⟩ = ⟨',' :: (behind ++ c :: rest), middle⟩ ∧
      (Cursor.skip ⟨',' :: (behind ++ c :: rest), middle⟩).passSpace = ⟨c :: rest, reached⟩ := by
  obtain ⟨middle, passed⟩ := exists_passSpace blank (rfl : isSpace ',' = false) (behind ++ c :: rest) place
  obtain ⟨reached, passed'⟩ := exists_passSpace blank' ink rest (middle.past ',')
  exact ⟨middle, reached, by rw [List.append_assoc]; exact passed, passed'⟩

theorem ne_bracket_of_opensValue {c : Char} (opens : opensValue c = true) : c ≠ ']' := by
  rintro rfl
  cases opens

theorem yields_nextItem {first : Bool} {lead : Text} (leads : Leads first lead) {c : Char} (ink : isSpace c = false)
    (other : c ≠ ']') (s : Text) (place : Place) : Yields (nextItem first ⟨lead ++ c :: s, place⟩) true (c :: s) := by
  cases leads with
  | first blank =>
    obtain ⟨reached, passed⟩ := exists_passSpace blank ink s place
    simp only [nextItem, passed, if_true]
    exact yields_ok _ _ _
  | comma blank blank' =>
    obtain ⟨middle, reached, passed, passed'⟩ := exists_pass_comma blank blank' ink s place
    simp only [nextItem, passed, passed', Bool.false_eq_true, if_false]
    split
    · rename_i nothing
      cases nothing
    · rename_i bracket
      cases bracket
    · rename_i comma
      cases comma
      rw [if_pos rfl]
      split
      · rename_i nothing
        cases nothing
      · rename_i bracket
        cases bracket
        exact absurd rfl other
      · exact yields_ok _ _ _

theorem yields_nextItem_end (first : Bool) {gap : Text} (blank : isGap gap = true) (rest : Text) (place : Place) :
    Yields (nextItem first ⟨gap ++ ']' :: rest, place⟩) false (']' :: rest) := by
  obtain ⟨reached, passed⟩ := exists_passSpace blank (rfl : isSpace ']' = false) rest place
  rw [nextItem, passed]
  exact yields_ok _ _ _

theorem yields_nextKey {first : Bool} {lead : Text} (leads : Leads first lead) (s : Text) (place : Place) :
    Yields (nextKey first ⟨lead ++ '"' :: s, place⟩) true ('"' :: s) := by
  have ink : isSpace '"' = false := rfl
  cases leads with
  | first blank =>
    obtain ⟨reached, passed⟩ := exists_passSpace blank ink s place
    rw [nextKey, passed]
    exact yields_ok _ _ _
  | comma blank blank' =>
    obtain ⟨middle, reached, passed, passed'⟩ := exists_pass_comma blank blank' ink s place
    simp only [nextKey, passed, passed']
    exact yields_ok _ _ _

theorem yields_nextKey_end (first : Bool) {gap : Text} (blank : isGap gap = true) (rest : Text) (place : Place) :
    Yields (nextKey first ⟨gap ++ '\x7d' :: rest, place⟩) false ('\x7d' :: rest) := by
  obtain ⟨reached, passed⟩ := exists_passSpace blank (rfl : isSpace '\x7d' = false) rest place
  rw [nextKey, passed]
  exact yields_ok _ _ _

theorem yields_readColon {gap : Text} (blank : isGap gap = true) (rest : Text) (place : Place) :
    Yields (readColon ⟨gap ++ ':' :: rest, place⟩) () rest := by
  obtain ⟨reached, passed⟩ := exists_passSpace blank (rfl : isSpace ':' = false) rest place
  rw [readColon, passed]
  exact yields_ok _ _ _

/-! ### Arrays -/

/-- The elements of an array as they are written, with what is read from them. -/
inductive Items (read : Cursor → Outcome α) : Text → List α → Prop
  | last {s : Text} {a : α} (accepts : Accepts read s a) : Items read s [a]
  | more {s lead items : Text} {a : α} {as : List α} (accepts : Accepts read s a) (leads : Leads false lead)
      (others : Items read items as) : Items read (s ++ (lead ++ items)) (a :: as)

theorem Items.opens {read : Cursor → Outcome α} {s : Text} {as : List α} (items : Items read s as) :
    ∃ c tail, s = c :: tail ∧ opensValue c = true := by
  cases items with
  | last accepts => exact accepts.opens
  | more accepts _ _ =>
    obtain ⟨c, tail, rfl, opens⟩ := accepts.opens
    exact ⟨c, _, rfl, opens⟩

theorem Items.reads {read : Cursor → Outcome α} {s : Text} {as : List α} (items : Items read s as) :
    ∀ (fuel : Nat) (first : Bool) (lead : Text), s.length < fuel → Leads first lead →
      ∀ (behind rest : Text) (place : Place), isGap behind = true →
        Yields (readItemsIn read fuel first ⟨lead ++ (s ++ (behind ++ ']' :: rest)), place⟩) as (']' :: rest) := by
  induction items with
  | last accepts =>
    intro fuel first lead enough leads behind rest place blank
    obtain ⟨c, tail, rfl, opens⟩ := accepts.opens
    obtain ⟨fuel, rfl⟩ := Nat.exists_eq_add_one_of_ne_zero (Nat.ne_zero_of_lt enough)
    obtain ⟨fuel, rfl⟩ : ∃ m, fuel = m + 1 := by
      rw [List.length_cons] at enough
      exact Nat.exists_eq_add_one_of_ne_zero (by omega)
    rw [readItemsIn]
    refine (yields_nextItem leads (isSpace_of_opensValue opens) (ne_bracket_of_opensValue opens) _ place).bind fun place => ?_
    refine (accepts.reads_here (ends_gap blank (.inr (.inl rfl)) rest) place).bind fun place => ?_
    have none : Yields (readItemsIn read (fuel + 1) false ⟨behind ++ ']' :: rest, place⟩) [] (']' :: rest) := by
      rw [readItemsIn]
      exact (yields_nextItem_end false blank rest place).bind fun place => yields_ok _ _ _
    exact none.bind fun place => yields_ok _ _ _
  | @more s lead' items a as accepts leads' _ ih =>
    intro fuel first lead enough leads behind rest place blank
    obtain ⟨c, tail, rfl, opens⟩ := accepts.opens
    obtain ⟨fuel, rfl⟩ := Nat.exists_eq_add_one_of_ne_zero (Nat.ne_zero_of_lt enough)
    -- An element has a character, so the steps last for the others.
    have enough : items.length < fuel := by
      simp only [List.length_append, List.length_cons] at enough
      omega
    rw [readItemsIn, List.append_assoc, List.append_assoc]
    refine (yields_nextItem leads (isSpace_of_opensValue opens) (ne_bracket_of_opensValue opens) _ place).bind fun place => ?_
    refine (accepts.reads_here (leads'.ends _) place).bind fun place => ?_
    exact (ih fuel false lead' enough leads' behind rest place blank).bind fun place => yields_ok _ _ _

theorem Items.accepts {read : Cursor → Outcome α} {s before behind : Text} {as : List α} (items : Items read s as)
    (blank : isGap before = true) (blank' : isGap behind = true) :
    Accepts (readList read) ('[' :: (before ++ (s ++ (behind ++ [']'])))) as := by
  refine .of_passed ⟨_, _, rfl, rfl⟩ fun k rest place _ passed => ?_
  simp only [List.cons_append, List.append_assoc] at passed
  rw [readList, passed]
  refine (items.reads _ true before ?_ (.first blank) behind rest (place.past '[') blank').bind fun place => ?_
  · simp only [List.length_cons, List.length_append]
    omega
  · exact ⟨_, rfl⟩

theorem accepts_empty {read : Cursor → Outcome α} {gap : Text} (blank : isGap gap = true) :
    Accepts (readList read) ('[' :: (gap ++ [']'])) [] := by
  refine .of_passed ⟨_, _, rfl, rfl⟩ fun k rest place _ passed => ?_
  simp only [List.cons_append, List.append_assoc] at passed
  rw [readList, passed]
  have none : Yields (readItemsIn read (('[' :: (gap ++ ']' :: rest)).length + 1) true
      ⟨gap ++ ']' :: rest, place.past '['⟩) [] (']' :: rest) := by
    rw [readItemsIn]
    exact (yields_nextItem_end true blank rest _).bind fun place => yields_ok _ _ _
  exact none.bind fun place => ⟨_, rfl⟩

/-! ### Printed arrays -/

theorem isGap_margin (level : Nat) : isGap (margin level) = true := by
  rw [isGap, margin, Text.repeated, List.all_flatten, List.all_replicate]
  simp [isSpace]

theorem isGap_newline (level : Nat) : isGap ('\n' :: margin level) = true := by
  rw [isGap, List.all_cons, ← isGap, isGap_margin]
  rfl

theorem leads_newline (level : Nat) : Leads false (',' :: '\n' :: margin level) :=
  .comma isGap_nil (isGap_newline level)

theorem exists_items_printItems {read : Cursor → Outcome α} {toJson : α → Value} (level : Nat) (a : α) (as : List α)
    (shows : ∀ x ∈ a :: as, Shows read (toJson x) x) :
    ∃ s, printItems level ((a :: as).map toJson) = margin level ++ s ∧ Items read s (a :: as) := by
  induction as generalizing a with
  | nil => exact ⟨_, rfl, .last (shows a List.mem_cons_self level)⟩
  | cons b as ih =>
    obtain ⟨s, printed, items⟩ := ih b fun x member => shows x (List.mem_cons_of_mem a member)
    refine ⟨_, ?_, .more (shows a List.mem_cons_self level) (leads_newline level) items⟩
    rw [List.map_cons, List.map_cons, printItems, ← List.map_cons, printed]
    simp only [List.append_assoc, List.cons_append, List.nil_append]

theorem shows_array {read : Cursor → Outcome α} {toJson : α → Value} (as : List α)
    (shows : ∀ a ∈ as, Shows read (toJson a) a) : Shows (readList read) (.array (as.map toJson)) as := by
  intro level
  cases as with
  | nil => exact accepts_empty isGap_nil
  | cons a as =>
    obtain ⟨s, printed, items⟩ := exists_items_printItems (level + 1) a as shows
    have outer := items.accepts (isGap_newline (level + 1)) (isGap_newline level)
    rw [List.map_cons, Value.printAt, ← List.map_cons, printed]
    simpa only [List.append_assoc, List.cons_append, List.nil_append] using outer

end ScriptAtlas.Json
