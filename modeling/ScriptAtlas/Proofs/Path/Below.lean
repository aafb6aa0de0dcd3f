import ScriptAtlas.Directory.Scan
import ScriptAtlas.Proofs.Text.Parts

/-!
Paths below another one. The name of an entry adds one component to a path
(`components_child`), so two ways below a path lead to the same file only by the
same names (`eq_of_same_below`), and the last name is the name of the file
(`fileName_below`). Whether that is the name of a script is told by what stands
on both sides of its last dot (`IndexOptions.isScript_iff`).
-/
namespace ScriptAtlas

/-- What an entry of a folder can be named. -/
structure IsName (name : Text) : Prop where
  nonempty : name ≠ []
  single : '/' ∉ name
  not_here : name ≠ ['.']
  not_up : name ≠ ['.', '.']

instance : DecidablePred IsName := fun name =>
  decidable_of_iff (name ≠ [] ∧ '/' ∉ name ∧ name ≠ ['.'] ∧ name ≠ ['.', '.'])
    ⟨fun ⟨nonempty, single, here, up⟩ => ⟨nonempty, single, here, up⟩,
      fun ⟨nonempty, single, here, up⟩ => ⟨nonempty, single, here, up⟩⟩

theorem IsName.component? {name : Text} (proper : IsName name) : Path.component? name = some (.name name) := by
  unfold Path.component?
  simp [proper.nonempty, proper.not_here, proper.not_up]

namespace Path

/-- What begins a path besides its names: the root, or a dot. -/
private def start (spelling : Text) : List Component :=
  if spelling.head? = some '/' then [.root]
  else if (Text.pieces '/' spelling).head? = some ['.'] then [.here]
  else []

private theorem components_eq (p : Path) :
    p.components = start p.spelling ++ (Text.pieces '/' p.spelling).filterMap component? := rfl

private theorem start_append {l : Text} (nonempty : l ≠ []) (r : Text) : start (l ++ '/' :: r) = start l := by
  have piece : (Text.pieces '/' (l ++ '/' :: r)).head? = (Text.pieces '/' l).head? := by
    obtain ⟨rest, pieces⟩ := Text.pieces_eq_cons '/' l
    simp [Text.pieces_append_cons, pieces]
  have first : (l ++ '/' :: r).head? = l.head? := by
    obtain ⟨c, l, rfl⟩ := List.exists_cons_of_ne_nil nonempty
    rfl
  simp [start, piece, first]

/-- The name of an entry is one more component. -/
theorem components_child (p : Path) {name : Text} (proper : IsName name) :
    (p.child name).components = p.components ++ [.name name] := by
  obtain ⟨spelling⟩ := p
  have single : Text.pieces '/' name = [name] := Text.pieces_of_not_mem proper.single
  by_cases empty : spelling = []
  · have first : name.head? ≠ some '/' := fun slash => proper.single (List.mem_of_mem_head? slash)
    have begins : start name = [] := by simp [start, first, single, proper.not_here]
    subst empty
    calc (child ⟨[]⟩ name).components = start name ++ (Text.pieces '/' name).filterMap component? := rfl
      _ = [.name name] := by simp [begins, single, proper.component?]
  · by_cases slash : spelling.getLast? = some '/'
    · obtain ⟨l, rfl⟩ := List.getLast?_eq_some_iff.mp slash
      have spelled : (child ⟨l ++ ['/']⟩ name).spelling = l ++ '/' :: name := by simp [child]
      have begins : start (l ++ '/' :: name) = start (l ++ ['/']) := by
        cases l with
        | nil => rfl
        | cons c l => rw [start_append (List.cons_ne_nil c l), start_append (List.cons_ne_nil c l)]
      have none : component? [] = none := rfl
      simp [components_eq, spelled, begins, Text.pieces_append_cons, single, proper.component?, Text.pieces, none]
    · have spelled : (child ⟨spelling⟩ name).spelling = spelling ++ '/' :: name := by simp [child, empty, slash]
      simp [components_eq, spelled, start_append empty, Text.pieces_append_cons, single, proper.component?]

/-- The path to which names lead from another one. -/
def below (p : Path) (names : List Text) : Path := names.foldl child p

@[simp] theorem below_nil (p : Path) : p.below [] = p := rfl

@[simp] theorem below_cons (p : Path) (name : Text) (names : List Text) :
    p.below (name :: names) = (p.child name).below names := rfl

@[simp] theorem below_concat (p : Path) (names : List Text) (name : Text) :
    p.below (names ++ [name]) = (p.below names).child name := by
  simp [below]

theorem components_below (p : Path) {names : List Text} (proper : ∀ name ∈ names, IsName name) :
    (p.below names).components = p.components ++ names.map .name := by
  induction names generalizing p with
  | nil => simp
  | cons name names ih =>
    rw [below_cons, ih _ fun n member => proper n (List.mem_cons_of_mem name member),
      components_child p (proper name List.mem_cons_self), List.append_assoc]
    rfl

/-- Only the same names lead to the same file. -/
theorem eq_of_same_below {p : Path} {left right : List Text} (first : ∀ name ∈ left, IsName name)
    (second : ∀ name ∈ right, IsName name) (same : (p.below left).same (p.below right) = true) : left = right := by
  have components := same_iff.mp same
  rw [components_below p first, components_below p second, List.append_cancel_left_eq] at components
  exact List.map_injective_iff.mpr (fun _ _ equal => by injection equal) components

theorem fileName_below (p : Path) (names : List Text) {name : Text} (proper : IsName name) :
    (p.below (names ++ [name])).fileName = name := by
  simp [fileName, components_child _ proper]

theorem extension?_eq_some_iff {name ending : Text} (proper : name ≠ ['.', '.']) :
    extension? name = some ending ↔ ∃ stem, stem ≠ [] ∧ name = stem ++ '.' :: ending ∧ '.' ∉ ending := by
  unfold extension?
  rw [if_neg proper]
  constructor
  · intro found
    split at found
    · cases found
    · cases found
    · rename_i after before nonempty cut
      cases found
      obtain ⟨absent, reversed⟩ := Text.cutAt_eq_some_iff.mp cut
      refine ⟨before.reverse, by simpa using nonempty, ?_, by simpa using absent⟩
      simpa using congrArg List.reverse reversed
  · rintro ⟨stem, nonempty, rfl, absent⟩
    have cut : Text.cutAt '.' (stem ++ '.' :: ending).reverse = some (ending.reverse, stem.reverse) :=
      Text.cutAt_eq_some_iff.mpr ⟨by simpa using absent, by simp⟩
    obtain ⟨c, rest, reversed⟩ := List.exists_cons_of_ne_nil (List.reverse_ne_nil_iff.mpr nonempty)
    rw [cut, reversed]
    simp

end Path

/-- A script is named by something, a dot and the extension of scripts up to the case of ASCII letters. -/
theorem IndexOptions.isScript_iff {options : IndexOptions} {name : Text} (proper : IsName name) :
    options.isScript name = true ↔ ∃ stem ending, stem ≠ [] ∧ name = stem ++ '.' :: ending ∧ '.' ∉ ending ∧
      Text.sameAscii options.extension ending = true := by
  rw [isScript, Option.any_eq_true]
  simp only [Path.extension?_eq_some_iff proper.not_up]
  constructor
  · rintro ⟨ending, ⟨stem, nonempty, spelled, last⟩, same⟩
    exact ⟨stem, ending, nonempty, spelled, last, same⟩
  · rintro ⟨stem, ending, nonempty, spelled, last, same⟩
    exact ⟨ending, ⟨stem, nonempty, spelled, last⟩, same⟩

end ScriptAtlas
