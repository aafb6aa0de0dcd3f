import Mathlib.Data.List.Basic
import ScriptAtlas.Text.Blank
import ScriptAtlas.Text.Cut

/-!
Texts put together from parts. A visible character keeps the blanks on its two sides
apart, so a cut at one commutes with trimming (`cutAt_trimStart`, `cutAt_trimEnd`). A
text that goes on is cut where it was cut before (`cutAt_append_of_some`), and only its
last piece grows (`exists_pieces_append`). A character that a separator does not have
keeps the separators on its two sides apart (`infix_append_cons_iff`,
`cutAtText_append_cons`). A doubled character is found from left to right, which tells
the pieces between its occurrences (`piecesBy_doubled_eq_iff`).
-/
namespace ScriptAtlas.Text

variable {c : Char} {s l r tail : Text}

/-! ### Blanks -/

theorem trimEnd_append_blank (s : Text) (blank : allBlank tail = true) : trimEnd (s ++ tail) = trimEnd s := by
  have backwards : ∀ x ∈ tail.reverse, isBlank x = true := fun x member =>
    List.all_eq_true.mp blank x (List.mem_reverse.mp member)
  rw [trimEnd, List.reverse_append, List.dropWhile_append_of_pos backwards, trimEnd]

theorem exists_trimEnd_append (s : Text) : ∃ tail, allBlank tail = true ∧ s = trimEnd s ++ tail := by
  refine ⟨(s.reverse.takeWhile isBlank).reverse, ?_, ?_⟩
  · rw [allBlank, List.all_reverse]
    exact List.all_takeWhile
  · rw [trimEnd, ← List.reverse_append, List.takeWhile_append_dropWhile, List.reverse_reverse]

theorem trim_append_blank (s : Text) (blank : allBlank tail = true) : trim (s ++ tail) = trim s := by
  rw [trim, trimStart, List.dropWhile_append, ← trimStart, ← trimStart]
  by_cases empty : (trimStart s).isEmpty = true
  · rw [if_pos empty, trim, List.isEmpty_iff.mp empty, trimStart_eq_nil_iff.mpr blank]
  · rw [if_neg empty, trimEnd_append_blank _ blank, trim]

theorem trim_trimStart (s : Text) : trim (trimStart s) = trim s := by
  rw [trim, trimStart_trimStart, trim]

theorem trim_trimEnd (s : Text) : trim (trimEnd s) = trim s := by
  obtain ⟨tail, blank, whole⟩ := exists_trimEnd_append s
  calc trim (trimEnd s) = trim (trimEnd s ++ tail) := (trim_append_blank _ blank).symm
    _ = trim s := by rw [← whole]

theorem trim_without_trimEnd (cs : List Char) (s : Text) : trim (without cs (trimEnd s)) = trim (without cs s) := by
  obtain ⟨tail, blank, whole⟩ := exists_trimEnd_append s
  have kept : allBlank (without cs tail) = true :=
    List.all_eq_true.mpr fun x member => List.all_eq_true.mp blank x (List.mem_filter.mp member).1
  calc trim (without cs (trimEnd s)) = trim (without cs (trimEnd s) ++ without cs tail) :=
        (trim_append_blank _ kept).symm
    _ = trim (without cs s) := by rw [without, without, ← List.filter_append, ← whole, without]

theorem trimStart_append_cons (visible : isBlank c = false) (l r : Text) :
    trimStart (l ++ c :: r) = trimStart l ++ c :: r := by
  have shown : trimStart (c :: r) = c :: r := List.dropWhile_cons_of_neg (Bool.eq_false_iff.mp visible)
  rw [trimStart, List.dropWhile_append, ← trimStart, ← trimStart, shown]
  split
  · rename_i empty
    rw [List.isEmpty_iff.mp empty, List.nil_append]
  · rfl

theorem trimEnd_append_cons (visible : isBlank c = false) (l r : Text) :
    trimEnd (l ++ c :: r) = l ++ c :: trimEnd r := by
  have backwards := trimStart_append_cons visible r.reverse l.reverse
  rw [trimStart] at backwards
  rw [trimEnd, List.reverse_append, List.reverse_cons, List.append_assoc, List.singleton_append, backwards, trimStart]
  simp [trimEnd]

/-- Trimming keeps every visible character. -/
theorem count_trim (visible : isBlank c = false) (s : Text) : (trim s).count c = s.count c := by
  have absent : ∀ {lead : Text}, allBlank lead = true → lead.count c = 0 := fun {lead} blank => by
    refine List.count_eq_zero.mpr fun member => ?_
    rw [List.all_eq_true.mp blank c member] at visible
    cases visible
  obtain ⟨tail, blank, whole⟩ := exists_trimEnd_append (trimStart s)
  calc (trim s).count c = (trimEnd (trimStart s) ++ tail).count c := by
        rw [List.count_append, absent blank, Nat.add_zero, trim]
    _ = (s.takeWhile isBlank ++ trimStart s).count c := by
        rw [← whole, List.count_append, absent List.all_takeWhile, Nat.zero_add]
    _ = s.count c := by rw [trimStart, List.takeWhile_append_dropWhile]

/-! ### Cuts -/

theorem cutAt_eq_none_iff : cutAt c s = none ↔ c ∉ s := by
  constructor
  · intro uncut member
    obtain ⟨l, r, rfl, absent⟩ := List.eq_append_cons_of_mem member
    rw [cutAt_append absent] at uncut
    cases uncut
  · intro absent
    cases cut : cutAt c s with
    | none => rfl
    | some parts =>
      obtain ⟨-, rfl⟩ := cutAt_eq_some_iff.mp cut
      exact absurd (List.mem_append_right _ List.mem_cons_self) absent

theorem cutAt_trimStart (visible : isBlank c = false) (s : Text) :
    cutAt c (trimStart s) = (cutAt c s).map fun (l, r) => (trimStart l, r) := by
  cases cut : cutAt c s with
  | none => exact cutAt_eq_none_iff.mpr fun member => cutAt_eq_none_iff.mp cut ((mem_trimStart visible).mp member)
  | some parts =>
    obtain ⟨absent, rfl⟩ := cutAt_eq_some_iff.mp cut
    have absent : c ∉ trimStart parts.1 := fun member => absent ((mem_trimStart visible).mp member)
    rw [trimStart_append_cons visible, cutAt_append absent]
    rfl

theorem cutAt_trimEnd (visible : isBlank c = false) (s : Text) :
    cutAt c (trimEnd s) = (cutAt c s).map fun (l, r) => (l, trimEnd r) := by
  cases cut : cutAt c s with
  | none => exact cutAt_eq_none_iff.mpr fun member => cutAt_eq_none_iff.mp cut ((prefix_trimEnd s).subset member)
  | some parts =>
    obtain ⟨absent, rfl⟩ := cutAt_eq_some_iff.mp cut
    rw [trimEnd_append_cons visible, cutAt_append absent]
    rfl

/-- A text that goes on is cut where it was cut before. -/
theorem cutAt_append_of_some (cut : cutAt c s = some (l, r)) (tail : Text) :
    cutAt c (s ++ tail) = some (l, r ++ tail) := by
  obtain ⟨absent, rfl⟩ := cutAt_eq_some_iff.mp cut
  rw [List.append_assoc, List.cons_append, cutAt_append absent]

theorem before_append_cons (c : Char) (l r : Text) : before c (l ++ c :: r) = before c l := by
  by_cases member : c ∈ l
  · obtain ⟨start, rest, rfl, absent⟩ := List.eq_append_cons_of_mem member
    rw [List.append_assoc, List.cons_append, before_eq_of_cutAt (cutAt_append absent _),
      before_eq_of_cutAt (cutAt_append absent rest)]
  · rw [before_eq_of_cutAt (cutAt_append member r), before_eq_self member]

/-- Of a text that goes on only the last piece does. -/
theorem exists_pieces_append (c : Char) (l : Text) :
    ∃ init last, init.length = l.count c ∧ last ⊆ l ∧ c ∉ last ∧
      ∀ r, pieces c (l ++ r) = init ++ pieces c (last ++ r) := by
  induction l with
  | nil => exact ⟨[], [], rfl, List.Subset.refl [], List.not_mem_nil, fun r => rfl⟩
  | cons x l ih =>
    obtain ⟨init, last, length, inside, absent, grows⟩ := ih
    have inside' : last ⊆ x :: l := List.subset_cons_of_subset x inside
    by_cases same : x = c
    · refine ⟨[] :: init, last, by simp [length, same], inside', absent, fun r => ?_⟩
      rw [List.cons_append, pieces, if_pos same, grows, List.cons_append]
    · have length : init.length = (x :: l).count c := by simpa [same] using length
      cases init with
      | nil =>
        refine ⟨[], x :: last, length, List.cons_subset_cons x inside,
          List.not_mem_cons_of_ne_of_not_mem (Ne.symm same) absent, fun r => ?_⟩
        rw [List.cons_append, pieces, if_neg same, grows, List.nil_append, List.nil_append, List.cons_append, pieces,
          if_neg same]
      | cons first init =>
        refine ⟨(x :: first) :: init, last, length, inside', absent, fun r => ?_⟩
        rw [List.cons_append, pieces, if_neg same, grows]
        rfl

theorem subset_of_mem_pieces {piece : Text} (member : piece ∈ pieces c s) : piece ⊆ s := by
  induction s generalizing piece with
  | nil =>
    rw [pieces, List.mem_singleton] at member
    rw [member]
    exact List.Subset.refl []
  | cons x s ih =>
    obtain ⟨rest, first⟩ := pieces_eq_cons c s
    rw [pieces] at member
    by_cases same : x = c
    · rw [if_pos same] at member
      rcases List.mem_cons.mp member with rfl | later
      · exact List.nil_subset _
      · exact List.subset_cons_of_subset x (ih later)
    · rw [if_neg same, first, growFirst] at member
      rcases List.mem_cons.mp member with rfl | later
      · exact List.cons_subset_cons x (List.takeWhile_prefix _).subset
      · exact List.subset_cons_of_subset x (ih (first ▸ List.mem_cons_of_mem _ later))

/-! ### Characters left out -/

theorem not_mem_without (c : Char) (s : Text) : c ∉ without [c] s := by simp [without]

theorem without_of_not_mem (absent : c ∉ s) : without [c] s = s := by
  refine List.filter_eq_self.mpr fun x member => ?_
  have apart : x ≠ c := ne_of_mem_of_not_mem member absent
  simpa using apart

theorem without_append_cons {x : Char} (other : x ≠ c) (l r : Text) :
    without [c] (l ++ x :: r) = without [c] l ++ x :: without [c] r := by
  rw [without, List.filter_append, List.filter_cons_of_pos (by simpa using other), ← without, ← without]

theorem count_without {x : Char} (other : x ≠ c) (s : Text) : (without [c] s).count x = s.count x :=
  List.count_filter (by simpa using other)

/-! ### Separators -/

theorem eq_of_cutAtText {mark : Text} (cut : cutAtText mark s = some (l, r)) : s = l ++ (mark ++ r) := by
  induction s generalizing l with
  | nil =>
    rw [cutAtText] at cut
    split at cut
    · rename_i empty
      obtain ⟨rfl, rfl⟩ := Prod.mk.inj (Option.some.inj cut)
      rw [List.isEmpty_iff.mp empty]
      rfl
    · cases cut
  | cons x s ih =>
    rw [cutAtText] at cut
    split at cut
    · rename_i here
      obtain ⟨rfl, rfl⟩ := Prod.mk.inj (Option.some.inj cut)
      exact (List.prefix_iff_eq_append.mp (List.isPrefixOf_iff_prefix.mp here)).symm
    · obtain ⟨⟨first, last⟩, later, parts⟩ := Option.map_eq_some_iff.mp cut
      obtain ⟨rfl, rfl⟩ := Prod.mk.inj parts
      rw [List.cons_append, ← ih later]

/-- A text that goes on is cut at the separator where it was cut before. -/
theorem cutAtText_append {mark : Text} (cut : cutAtText mark s = some (l, r)) (t : Text) :
    cutAtText mark (s ++ t) = some (l, r ++ t) := by
  induction s generalizing l with
  | nil =>
    have whole := eq_of_cutAtText cut
    obtain ⟨rfl, rfl, rfl⟩ : l = [] ∧ mark = [] ∧ r = [] := by simpa using whole.symm
    cases t <;> rfl
  | cons x s ih =>
    rw [cutAtText] at cut
    rw [List.cons_append, cutAtText]
    split at cut
    · rename_i here
      obtain ⟨rfl, rfl⟩ := Prod.mk.inj (Option.some.inj cut)
      have opens := List.isPrefixOf_iff_prefix.mp here
      have onwards : mark.isPrefixOf (x :: (s ++ t)) = true :=
        List.isPrefixOf_iff_prefix.mpr (opens.trans (List.prefix_append (x :: s) t))
      rw [if_pos onwards, ← List.cons_append, List.drop_append_of_le_length opens.length_le]
    · rename_i apart
      obtain ⟨⟨first, last⟩, later, parts⟩ := Option.map_eq_some_iff.mp cut
      obtain ⟨rfl, rfl⟩ := Prod.mk.inj parts
      -- The separator fits into the text behind `x`, so it cannot reach beyond it.
      have fits : mark.length ≤ (x :: s).length := by
        have length := congrArg List.length (eq_of_cutAtText later)
        simp only [List.length_append] at length
        rw [List.length_cons]
        omega
      have closed : ¬ mark.isPrefixOf (x :: (s ++ t)) = true := fun opens =>
        apart (List.isPrefixOf_iff_prefix.mpr (List.prefix_of_prefix_length_le
          (List.isPrefixOf_iff_prefix.mp opens) (List.prefix_append (x :: s) t) fits))
      rw [if_neg closed, ih later, Option.map_some]

/-- A separator does not reach beyond a character that it does not have. -/
theorem prefix_append_cons_iff {mark : Text} (other : c ∉ mark) (l r : Text) : mark <+: l ++ c :: r ↔ mark <+: l := by
  constructor
  · intro opens
    rcases List.prefix_or_prefix_of_prefix opens (List.prefix_append l (c :: r)) with inside | ⟨more, rfl⟩
    · exact inside
    · -- What is left of the separator behind `l` would begin with that character.
      have next : more <+: c :: r := (List.prefix_append_right_inj l).mp opens
      cases more with
      | nil => simp
      | cons x more =>
        obtain ⟨rfl, -⟩ := List.cons_prefix_cons.mp next
        exact absurd (List.mem_append_right l List.mem_cons_self) other
  · exact fun opens => opens.trans (List.prefix_append l (c :: r))

/-- A separator stands on one side of a character that it does not have. -/
theorem infix_append_cons_iff {mark : Text} (other : c ∉ mark) (l r : Text) :
    mark <:+: l ++ c :: r ↔ mark <:+: l ∨ mark <:+: r := by
  induction l with
  | nil =>
    have here := prefix_append_cons_iff other [] r
    rw [List.nil_append] at here
    rw [List.nil_append, List.infix_cons_iff, here, List.prefix_nil, List.infix_nil]
  | cons x l ih =>
    have here := prefix_append_cons_iff other (x :: l) r
    rw [List.cons_append] at here
    rw [List.cons_append, List.infix_cons_iff, here, ih, List.infix_cons_iff, or_assoc]

theorem cutAtText_eq_none_iff {mark : Text} : cutAtText mark s = none ↔ ¬ mark <:+: s := by
  induction s with
  | nil =>
    rw [cutAtText, List.infix_nil, ← List.isEmpty_iff]
    split <;> simp_all
  | cons x s ih =>
    rw [cutAtText, List.infix_cons_iff, not_or, ← ih, ← List.isPrefixOf_iff_prefix]
    split <;> simp_all

/-- A separator that is not found before a character that it does not have is looked
    for behind it. -/
theorem cutAtText_append_cons {mark : Text} (other : c ∉ mark) (free : ¬ mark <:+: l) (r : Text) :
    cutAtText mark (l ++ c :: r) = (cutAtText mark r).map fun (a, b) => (l ++ c :: a, b) := by
  induction l with
  | nil =>
    have closed : ¬ mark.isPrefixOf (c :: r) = true := by
      rw [List.isPrefixOf_iff_prefix, ← List.nil_append (c :: r), prefix_append_cons_iff other]
      exact fun opens => free opens.isInfix
    rw [List.nil_append, cutAtText, if_neg closed]
    rfl
  | cons x l ih =>
    rw [List.infix_cons_iff, not_or] at free
    have closed : ¬ mark.isPrefixOf (x :: (l ++ c :: r)) = true := by
      rw [List.isPrefixOf_iff_prefix, ← List.cons_append, prefix_append_cons_iff other]
      exact free.1
    rw [List.cons_append, cutAtText, if_neg closed, ih free.2, Option.map_map]
    rfl

/-- A text that neither has a doubled character nor ends in its half is passed over. -/
theorem doubled_cons {x : Char} (free : ¬ [c, c] <:+: x :: l) (last : (x :: l).getLast? ≠ some c) (r : Text) :
    ¬ [c, c] <+: x :: (l ++ c :: c :: r) ∧ ¬ [c, c] <:+: l ∧ l.getLast? ≠ some c := by
  rw [List.infix_cons_iff, not_or] at free
  cases l with
  | nil =>
    have apart : ¬ c = x := by simpa [eq_comm] using last
    simp [apart]
  | cons y l =>
    rw [List.getLast?_cons_cons] at last
    exact ⟨by simpa using free.1, free.2, last⟩

/-- A doubled character is found behind a text that neither has it nor ends in its half. -/
theorem cutAtText_doubled (free : ¬ [c, c] <:+: l) (last : l.getLast? ≠ some c) (r : Text) :
    cutAtText [c, c] (l ++ c :: c :: r) = some (l, r) := by
  induction l with
  | nil => simp [cutAtText]
  | cons x l ih =>
    obtain ⟨closed, free, last⟩ := doubled_cons free last r
    rw [← List.isPrefixOf_iff_prefix] at closed
    rw [List.cons_append, cutAtText, if_neg closed, ih free last, Option.map_some]

/-- What is cut off before a doubled character neither has it nor ends in its half. -/
theorem free_of_cutAtText_doubled (cut : cutAtText [c, c] s = some (l, r)) :
    ¬ [c, c] <:+: l ∧ l.getLast? ≠ some c := by
  induction s generalizing l with
  | nil => cases cut
  | cons x s ih =>
    rw [cutAtText] at cut
    split at cut
    · obtain ⟨rfl, -⟩ := Prod.mk.inj (Option.some.inj cut)
      simp
    · rename_i apart
      obtain ⟨⟨first, last⟩, later, parts⟩ := Option.map_eq_some_iff.mp cut
      obtain ⟨rfl, rfl⟩ := Prod.mk.inj parts
      obtain ⟨free, ends⟩ := ih later
      have whole := eq_of_cutAtText later
      rw [List.isPrefixOf_iff_prefix] at apart
      constructor
      · rw [List.infix_cons_iff, not_or]
        refine ⟨fun here => apart (here.trans ?_), free⟩
        rw [whole]
        exact List.prefix_append (x :: first) _
      · cases first with
        | nil =>
          intro same
          obtain rfl : x = c := by simpa using same
          exact apart ⟨x :: last, by rw [whole]; rfl⟩
        | cons y first => rwa [List.getLast?_cons_cons]

/-! ### Pieces between separators -/

theorem piecesFrom_skip (mark : Text) (skip : Nat) (s : Text) :
    piecesFrom mark skip s = piecesBy mark (s.drop skip) := by
  induction skip generalizing s with
  | zero => rfl
  | succ skip ih =>
    cases s with
    | nil => rfl
    | cons x s => rw [piecesFrom, ih, List.drop_succ_cons]

theorem piecesBy_cons_of_apart {mark : Text} {x : Char} (apart : ¬ mark <+: x :: s) :
    piecesBy mark (x :: s) = growFirst x (piecesBy mark s) := by
  rw [← List.isPrefixOf_iff_prefix] at apart
  rw [piecesBy, piecesFrom, if_neg apart]
  rfl

/-- A text without the separator is one piece. -/
theorem piecesBy_of_free {mark : Text} (free : ¬ mark <:+: s) : piecesBy mark s = [s] := by
  induction s with
  | nil => rfl
  | cons x s ih =>
    rw [List.infix_cons_iff, not_or] at free
    rw [piecesBy_cons_of_apart free.1, ih free.2]
    rfl

/-- The first piece is cut off at the first separator. -/
theorem piecesBy_doubled (free : ¬ [c, c] <:+: l) (last : l.getLast? ≠ some c) (r : Text) :
    piecesBy [c, c] (l ++ c :: c :: r) = l :: piecesBy [c, c] r := by
  induction l with
  | nil =>
    rw [List.nil_append, piecesBy, piecesFrom, if_pos (by simp), piecesFrom_skip]
    rfl
  | cons x l ih =>
    obtain ⟨apart, free, last⟩ := doubled_cons free last r
    rw [List.cons_append, piecesBy_cons_of_apart apart, ih free last]
    rfl

/-- The pieces between doubled characters make up the text with these between them. None of
    them has a doubled character, and none but the last ends in its half, since separators
    are found from left to right. -/
theorem piecesBy_doubled_eq_iff {pieces : List Text} :
    piecesBy [c, c] s = pieces ↔ pieces ≠ [] ∧ joinWith [c, c] pieces = s ∧
      (∀ piece ∈ pieces, ¬ [c, c] <:+: piece) ∧ ∀ piece ∈ pieces.dropLast, piece.getLast? ≠ some c := by
  constructor
  · rintro rfl
    induction size : s.length using Nat.strongRecOn generalizing s with
    | ind n ih =>
      cases cut : cutAtText [c, c] s with
      | none =>
        have free := cutAtText_eq_none_iff.mp cut
        rw [piecesBy_of_free free]
        exact ⟨by simp, by simp [joinWith], by simpa using free, by simp⟩
      | some parts =>
        obtain ⟨l, r⟩ := parts
        obtain ⟨free, last⟩ := free_of_cutAtText_doubled cut
        have whole := eq_of_cutAtText cut
        obtain ⟨some, joined, frees, lasts⟩ := ih r.length (by rw [← size, whole]; simp; omega) rfl
        have split : piecesBy [c, c] s = l :: piecesBy [c, c] r := by
          rw [whole]
          exact piecesBy_doubled free last r
        obtain ⟨first, rest, same⟩ := List.exists_cons_of_ne_nil some
        rw [same] at joined frees lasts split
        rw [split]
        refine ⟨List.cons_ne_nil _ _, ?_, ?_, ?_⟩
        · rw [joinWith] at joined
          rw [joinWith, List.intercalate_cons_cons, joined, whole, List.append_assoc]
        · exact List.forall_mem_cons.mpr ⟨free, frees⟩
        · rw [List.dropLast_cons_cons]
          exact List.forall_mem_cons.mpr ⟨last, lasts⟩
  · rintro ⟨some, rfl, frees, lasts⟩
    induction pieces with
    | nil => exact absurd rfl some
    | cons first rest ih =>
      obtain ⟨free, frees⟩ := List.forall_mem_cons.mp frees
      cases rest with
      | nil =>
        rw [joinWith, List.intercalate_singleton]
        exact piecesBy_of_free free
      | cons second rest =>
        rw [List.dropLast_cons_cons] at lasts
        obtain ⟨last, lasts⟩ := List.forall_mem_cons.mp lasts
        have later := ih (List.cons_ne_nil _ _) frees lasts
        rw [joinWith] at later
        rw [joinWith, List.intercalate_cons_cons, List.append_assoc]
        exact (piecesBy_doubled free last _).trans (congrArg _ later)

end ScriptAtlas.Text
