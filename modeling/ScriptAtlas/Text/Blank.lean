import ScriptAtlas.Text.Basic

/-!
Blank characters are those with the Unicode property `White_Space`. Trimming
removes blank characters at the ends of a text and nothing in between.
-/
namespace ScriptAtlas.Text

/-- The characters with the property `White_Space`. -/
def blankRanges : CodeRanges :=
  [(0x09, 0x0D), (0x20, 0x20), (0x85, 0x85), (0xA0, 0xA0), (0x1680, 0x1680), (0x2000, 0x200A),
   (0x2028, 0x2029), (0x202F, 0x202F), (0x205F, 0x205F), (0x3000, 0x3000)]

/-- Whether a character separates words without being seen. -/
def isBlank (c : Char) : Bool := blankRanges.has c

/-- A text of blank characters only. -/
def allBlank (s : Text) : Bool := s.all isBlank

def trimStart (s : Text) : Text := s.dropWhile isBlank

def trimEnd (s : Text) : Text := (s.reverse.dropWhile isBlank).reverse

/-- A text without its leading and trailing blank characters. -/
def trim (s : Text) : Text := trimEnd (trimStart s)

theorem isBlank_space : isBlank ' ' = true := by decide
theorem isBlank_tab : isBlank '\t' = true := by decide
theorem isBlank_return : isBlank '\r' = true := by decide

theorem ne_of_isBlank {c d : Char} (shown : isBlank d = false) (blank : isBlank c = true) : d ≠ c := by
  rintro rfl
  exact Bool.false_ne_true (shown.symm.trans blank)

theorem trimStart_eq_nil_iff {s : Text} : trimStart s = [] ↔ allBlank s = true := by
  induction s with
  | nil => simp [trimStart, allBlank]
  | cons c s ih =>
    rw [trimStart] at ih
    rw [trimStart, List.dropWhile_cons, allBlank, List.all_cons, Bool.and_eq_true]
    cases isBlank c with
    | true => rw [if_pos rfl, ih, and_iff_right rfl, allBlank]
    | false => simp

theorem trimEnd_eq_nil_iff {s : Text} : trimEnd s = [] ↔ allBlank s = true := by
  have backwards := trimStart_eq_nil_iff (s := s.reverse)
  rwa [trimEnd, List.reverse_eq_nil_iff, allBlank, ← List.all_reverse]

/-- What is left of a text without its leading blank characters is blank only
    if nothing is left. -/
theorem allBlank_trimStart {s : Text} : allBlank (trimStart s) = allBlank s := by
  rw [Bool.eq_iff_iff, ← trimStart_eq_nil_iff (s := s)]
  cases rest : trimStart s with
  | nil => simp [allBlank]
  | cons c tail =>
    have visible : isBlank c = false := by
      have := List.head?_dropWhile_not isBlank s
      rw [← trimStart, rest] at this
      simpa using this
    simp [allBlank, visible]

/-- A text is trimmed to nothing exactly if it is blank. -/
theorem trim_eq_nil_iff {s : Text} : trim s = [] ↔ allBlank s = true := by
  rw [trim, trimEnd_eq_nil_iff, allBlank_trimStart]

theorem isBlank_of_mem_head?_trimStart {c : Char} {s : Text} (first : c ∈ (trimStart s).head?) : isBlank c = false := by
  have visible := List.head?_dropWhile_not isBlank s
  rw [← trimStart, Option.mem_def.mp first] at visible
  simpa using visible

theorem trimStart_eq_self {s : Text} (visible : ∀ c ∈ s.head?, isBlank c = false) : trimStart s = s := by
  cases s with
  | nil => rfl
  | cons c s =>
    have apart : ¬ isBlank c = true := Bool.eq_false_iff.mp (visible c rfl)
    exact List.dropWhile_cons_of_neg apart

theorem trimStart_trimStart (s : Text) : trimStart (trimStart s) = trimStart s :=
  trimStart_eq_self fun _ => isBlank_of_mem_head?_trimStart

theorem trimEnd_trimEnd (s : Text) : trimEnd (trimEnd s) = trimEnd s := by
  have backwards := trimStart_trimStart s.reverse
  simp only [trimStart] at backwards
  rw [trimEnd, trimEnd, List.reverse_reverse, backwards]

theorem prefix_trimEnd (s : Text) : trimEnd s <+: s := by
  have backwards : s.reverse.dropWhile isBlank <:+ s.reverse := List.dropWhile_suffix isBlank
  rw [trimEnd, ← List.reverse_suffix, List.reverse_reverse]
  exact backwards

theorem trim_trim (s : Text) : trim (trim s) = trim s := by
  -- What is cut off at the end leaves the first character where it is.
  have visible : ∀ c ∈ (trim s).head?, isBlank c = false := fun c first => by
    obtain ⟨rest, whole⟩ := prefix_trimEnd (trimStart s)
    rw [← trim] at whole
    refine isBlank_of_mem_head?_trimStart (s := s) ?_
    rw [← whole]
    cases start : trim s with
    | nil => rw [start] at first; cases first
    | cons x tail => rw [start] at first; exact first
  calc trim (trim s) = trimEnd (trim s) := by rw [trim, trimStart_eq_self visible]
    _ = trim s := by rw [trim, trimEnd_trimEnd]

theorem trimStart_eq_self_iff {s : Text} : trimStart s = s ↔ ∀ c ∈ s.head?, isBlank c = false := by
  refine ⟨fun same c first => ?_, trimStart_eq_self⟩
  rw [← same] at first
  exact isBlank_of_mem_head?_trimStart first

theorem trimEnd_eq_self_iff {s : Text} : trimEnd s = s ↔ ∀ c ∈ s.getLast?, isBlank c = false := by
  have backwards := trimStart_eq_self_iff (s := s.reverse)
  rw [trimStart, List.head?_reverse] at backwards
  rw [trimEnd, List.reverse_eq_iff, backwards]

/-- No character at either end of a text is blank. -/
def HasShownEnds (s : Text) : Prop :=
  (∀ c ∈ s.head?, isBlank c = false) ∧ ∀ c ∈ s.getLast?, isBlank c = false

/-- Trimming leaves a text as it is exactly if its ends are not blank. -/
theorem trim_eq_self_iff {s : Text} : trim s = s ↔ HasShownEnds s := by
  rw [HasShownEnds, ← trimStart_eq_self_iff, ← trimEnd_eq_self_iff]
  constructor
  · intro same
    have longer : s <+: trimStart s := by
      have start := prefix_trimEnd (trimStart s)
      rwa [← trim, same] at start
    have shorter : trimStart s <:+ s := List.dropWhile_suffix isBlank
    have start : trimStart s = s := shorter.eq_of_length_le longer.length_le
    refine ⟨start, ?_⟩
    rwa [trim, start] at same
  · rintro ⟨start, last⟩
    rw [trim, start, last]

theorem mem_of_mem_trim {c : Char} {s : Text} (member : c ∈ trim s) : c ∈ s :=
  List.dropWhile_subset isBlank ((prefix_trimEnd _).subset member)

theorem trim_cons {c : Char} (blank : isBlank c = true) (s : Text) : trim (c :: s) = trim s := by
  rw [trim, trim, trimStart, trimStart, List.dropWhile_cons_of_pos blank]

/-- A character that is not blank survives the loss of leading blank characters. -/
theorem mem_trimStart {c : Char} (visible : isBlank c = false) {s : Text} : c ∈ trimStart s ↔ c ∈ s := by
  induction s with
  | nil => rfl
  | cons x s ih =>
    rw [trimStart] at ih
    rw [trimStart, List.dropWhile_cons]
    split
    · rename_i blank
      have apart : c ≠ x := fun same => by rw [same, blank] at visible; cases visible
      rw [ih, List.mem_cons, or_iff_right apart]
    · rfl

theorem mem_trim {c : Char} (visible : isBlank c = false) {s : Text} : c ∈ trim s ↔ c ∈ s := by
  have backwards := mem_trimStart visible (s := (trimStart s).reverse)
  rw [trim, trimEnd, List.mem_reverse, ← mem_trimStart visible (s := s)]
  rwa [List.mem_reverse] at backwards

end ScriptAtlas.Text
