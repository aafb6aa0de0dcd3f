import ScriptAtlas.Text.Basic

/-!
Cutting a text at a character or at a separator. A cut keeps everything except
the separator itself: what stands before the first occurrence and what stands
after it. Pieces are what remains between all occurrences, found from left to
right without overlap.
-/
namespace ScriptAtlas.Text

/-- What stands before the first occurrence of `c`, or all of the text. -/
def before (c : Char) (s : Text) : Text := s.takeWhile (· != c)

/-- The parts on both sides of the first occurrence of `c`. -/
def cutAt (c : Char) : Text → Option (Text × Text)
  | [] => none
  | x :: s => if x = c then some ([], s) else (cutAt c s).map fun (l, r) => (x :: l, r)

theorem before_append {c : Char} {l : Text} (absent : c ∉ l) (r : Text) :
    before c (l ++ r) = l ++ before c r := by
  refine List.takeWhile_append_of_pos fun x member => ?_
  exact bne_iff_ne.mpr fun same => absent (same ▸ member)

theorem not_mem_before (c : Char) (s : Text) : c ∉ before c s := by
  intro member
  have other := List.all_eq_true.mp List.all_takeWhile c member
  exact bne_iff_ne.mp other rfl

theorem before_eq_self {c : Char} {s : Text} (absent : c ∉ s) : before c s = s := by
  have whole := before_append absent []
  rwa [List.append_nil, show before c [] = [] from rfl, List.append_nil] at whole

theorem cutAt_append {c : Char} {l : Text} (absent : c ∉ l) (r : Text) :
    cutAt c (l ++ c :: r) = some (l, r) := by
  induction l with
  | nil => rw [List.nil_append, cutAt, if_pos rfl]
  | cons x l ih =>
    obtain ⟨apart, absent⟩ := List.ne_and_not_mem_of_not_mem_cons absent
    rw [List.cons_append, cutAt, if_neg apart.symm, ih absent, Option.map_some]

theorem cutAt_eq_some_iff {c : Char} {s l r : Text} : cutAt c s = some (l, r) ↔ c ∉ l ∧ s = l ++ c :: r := by
  constructor
  · induction s generalizing l with
    | nil =>
      intro impossible
      cases impossible
    | cons x s ih =>
      intro cut
      rw [cutAt] at cut
      by_cases same : x = c
      · rw [if_pos same, Option.some.injEq, Prod.mk.injEq] at cut
        obtain ⟨rfl, rfl⟩ := cut
        exact ⟨List.not_mem_nil, by rw [same, List.nil_append]⟩
      · rw [if_neg same] at cut
        obtain ⟨⟨first, last⟩, later, parts⟩ := Option.map_eq_some_iff.mp cut
        obtain ⟨rfl, rfl⟩ := Prod.mk.inj parts
        obtain ⟨absent, rfl⟩ := ih later
        exact ⟨List.not_mem_cons_of_ne_of_not_mem (Ne.symm same) absent, rfl⟩
  · rintro ⟨absent, rfl⟩
    exact cutAt_append absent r

theorem before_eq_of_cutAt {c : Char} {s l r : Text} (cut : cutAt c s = some (l, r)) : before c s = l := by
  obtain ⟨absent, rfl⟩ := cutAt_eq_some_iff.mp cut
  rw [before_append absent, before, List.takeWhile_cons_of_neg (by simp), List.append_nil]

/-- A text is divided at a character that is at its beginning or further on. -/
theorem forall_divided_cons_iff {c d : Char} {s : Text} {p : Text → Text → Prop} :
    (∀ l r, c :: s = l ++ d :: r → p l r) ↔ (c = d → p [] s) ∧ ∀ l r, s = l ++ d :: r → p (c :: l) r := by
  constructor
  · intro all
    refine ⟨?_, ?_⟩
    · rintro rfl
      exact all [] s rfl
    · rintro l r rfl
      exact all (c :: l) r rfl
  · rintro ⟨here, later⟩ l r whole
    cases l with
    | nil =>
      obtain ⟨rfl, rfl⟩ := List.cons.inj whole
      exact here rfl
    | cons x l =>
      obtain ⟨rfl, rest⟩ := List.cons.inj whole
      exact later l r rest

theorem exists_divided_cons_iff {c d : Char} {s : Text} {p : Text → Text → Prop} :
    (∃ l r, c :: s = l ++ d :: r ∧ p l r) ↔ (c = d ∧ p [] s) ∨ ∃ l r, s = l ++ d :: r ∧ p (c :: l) r := by
  constructor
  · rintro ⟨l, r, whole, holds⟩
    have places := forall_divided_cons_iff (c := c) (d := d) (s := s)
      (p := fun l r => p l r → (c = d ∧ p [] s) ∨ ∃ l r, s = l ++ d :: r ∧ p (c :: l) r)
    refine places.mpr ⟨fun here first => ?_, fun l r later holds => ?_⟩ l r whole holds
    · exact Or.inl ⟨here, first⟩
    · exact Or.inr ⟨l, r, later, holds⟩
  · rintro (⟨rfl, holds⟩ | ⟨l, r, rfl, holds⟩)
    · exact ⟨[], s, rfl, holds⟩
    · exact ⟨c :: l, r, rfl, holds⟩

/-- The parts on both sides of the first occurrence of a separator. -/
def cutAtText (separator : Text) : Text → Option (Text × Text)
  | [] => if separator.isEmpty then some ([], []) else none
  | x :: s =>
    if separator.isPrefixOf (x :: s) then some ([], (x :: s).drop separator.length)
    else (cutAtText separator s).map fun (l, r) => (x :: l, r)

/-- Puts an item in front of the first piece. -/
def growFirst (x : α) : List (List α) → List (List α)
  | [] => [[x]]
  | piece :: rest => (x :: piece) :: rest

/-- The pieces between the occurrences of `c`, one more than there are occurrences. -/
def pieces [DecidableEq α] (c : α) : List α → List (List α)
  | [] => [[]]
  | x :: s => if x = c then [] :: pieces c s else growFirst x (pieces c s)

/-- The first piece is what stands before the first occurrence. -/
theorem pieces_eq_cons (c : Char) (s : Text) : ∃ rest, pieces c s = before c s :: rest := by
  induction s with
  | nil => exact ⟨[], rfl⟩
  | cons x s ih =>
    obtain ⟨rest, found⟩ := ih
    rw [pieces, before, List.takeWhile_cons]
    by_cases same : x = c
    · exact ⟨pieces c s, by simp [same]⟩
    · exact ⟨rest, by simp [same, found, growFirst, before]⟩

theorem pieces_append {c : Char} {l : Text} (absent : c ∉ l) (r : Text) :
    pieces c (l ++ c :: r) = l :: pieces c r := by
  induction l with
  | nil => rw [List.nil_append, pieces, if_pos rfl]
  | cons x l ih =>
    obtain ⟨apart, absent⟩ := List.ne_and_not_mem_of_not_mem_cons absent
    rw [List.cons_append, pieces, if_neg apart.symm, ih absent, growFirst]

theorem pieces_of_not_mem {c : Char} {s : Text} (absent : c ∉ s) : pieces c s = [s] := by
  induction s with
  | nil => rfl
  | cons x s ih =>
    obtain ⟨apart, absent⟩ := List.ne_and_not_mem_of_not_mem_cons absent
    rw [pieces, if_neg apart.symm, ih absent, growFirst]

/-- An occurrence separates the pieces before it from those after it. -/
theorem pieces_append_cons (c : Char) (l r : Text) : pieces c (l ++ c :: r) = pieces c l ++ pieces c r := by
  induction l with
  | nil =>
    have first : pieces c (c :: r) = [] :: pieces c r := by rw [pieces, if_pos rfl]
    rw [List.nil_append, first]
    rfl
  | cons x l ih =>
    rw [List.cons_append, pieces, pieces, ih]
    by_cases same : x = c
    · rw [if_pos same, if_pos same, List.cons_append]
    · obtain ⟨rest, first⟩ := pieces_eq_cons c l
      rw [if_neg same, if_neg same, first, List.cons_append, growFirst, growFirst, List.cons_append]

theorem not_mem_of_mem_pieces {c : Char} {s : Text} : ∀ piece ∈ pieces c s, c ∉ piece := by
  induction s with
  | nil => simp [pieces]
  | cons x s ih =>
    obtain ⟨rest, first⟩ := pieces_eq_cons c s
    intro piece member
    rw [pieces] at member
    rw [first] at ih
    by_cases same : x = c
    · rw [if_pos same, first] at member
      rcases List.mem_cons.mp member with rfl | later
      · exact List.not_mem_nil
      · exact ih piece later
    · rw [if_neg same, first, growFirst] at member
      rcases List.mem_cons.mp member with rfl | later
      · exact List.not_mem_cons_of_ne_of_not_mem (Ne.symm same) (ih _ List.mem_cons_self)
      · exact ih piece (List.mem_cons_of_mem _ later)

/-- The pieces with the character between them are the text. -/
theorem joinWith_pieces (c : Char) (s : Text) : joinWith [c] (pieces c s) = s := by
  induction s with
  | nil => rfl
  | cons x s ih =>
    obtain ⟨rest, first⟩ := pieces_eq_cons c s
    rw [joinWith, first] at ih
    rw [pieces, joinWith, first]
    by_cases same : x = c
    · rw [if_pos same, List.intercalate_cons_cons, ih, same]
      rfl
    · rw [if_neg same, growFirst, List.intercalate_cons_cons_left, ih]

/-- The pieces between the occurrences of a separator, after `skip` more
    characters of the occurrence that is being passed. -/
def piecesFrom (separator : Text) : Nat → Text → List Text
  | _, [] => [[]]
  | skip + 1, _ :: s => piecesFrom separator skip s
  | 0, x :: s =>
    if separator.isPrefixOf (x :: s) then [] :: piecesFrom separator (separator.length - 1) s
    else growFirst x (piecesFrom separator 0 s)

/-- The pieces between the occurrences of a non-empty separator. -/
def piecesBy (separator : Text) (s : Text) : List Text := piecesFrom separator 0 s

/-- Every occurrence of a non-empty pattern is left out, after `skip` more
    characters of the occurrence that is being passed. -/
def eraseFrom (pattern : Text) : Nat → Text → Text
  | _, [] => []
  | skip + 1, _ :: s => eraseFrom pattern skip s
  | 0, x :: s =>
    if pattern.isPrefixOf (x :: s) then eraseFrom pattern (pattern.length - 1) s
    else x :: eraseFrom pattern 0 s

/-- A text without the occurrences of a non-empty pattern, found from left to right. -/
def erase (pattern : Text) (s : Text) : Text := eraseFrom pattern 0 s

/-- A text without the characters `cs`. -/
def without (cs : List Char) (s : Text) : Text := s.filter fun c => !cs.contains c

/-- Whether a part occurs somewhere in a text. -/
def hasPart (part : Text) : Text → Bool
  | [] => part.isEmpty
  | x :: s => part.isPrefixOf (x :: s) || hasPart part s

theorem hasPart_iff_infix {part s : Text} : hasPart part s = true ↔ part <:+: s := by
  induction s with
  | nil => rw [hasPart, List.isEmpty_iff, List.infix_nil]
  | cons x s ih => rw [hasPart, Bool.or_eq_true, List.isPrefixOf_iff_prefix, ih, List.infix_cons_iff]

/-- What follows a given beginning. -/
def afterPrefix (start : Text) (s : Text) : Option Text :=
  if start.isPrefixOf s then some (s.drop start.length) else none

/-- A text without one final character `c`, if it ends in it. -/
def dropFinal (c : Char) (s : Text) : Text :=
  if s.getLast? = some c then s.dropLast else s

theorem dropFinal_append (c : Char) (l : Text) {r : Text} (some : r ≠ []) : dropFinal c (l ++ r) = l ++ dropFinal c r := by
  rw [dropFinal, dropFinal, List.getLast?_append, List.dropLast_append_of_ne_nil some]
  cases last : r.getLast? with
  | none => exact absurd (List.getLast?_eq_none_iff.mp last) some
  | some x =>
    rw [Option.some_or]
    split <;> rfl

theorem dropFinal_concat (c : Char) (l : Text) : dropFinal c (l ++ [c]) = l := by
  rw [dropFinal, List.getLast?_concat, if_pos rfl, List.dropLast_concat]

end ScriptAtlas.Text
