import ScriptAtlas.Outline.Projection
import ScriptAtlas.Proofs.Line.ReturnClause

/-!
The label of a function is a declaration again. What was read from a line has no blanks at
the ends of its texts and nothing in them that would end them sooner when they are read
again (`Parameter.tidy_of_ofText?`, `Signature.tidy_of_ofLine?`), and a label puts between
them what ends them. So the label is read as the signature it was written for
(`Parameter.ofText?_label`, `Signature.ofLine?_labelOf`), unless a return mark stands
before the one that the label writes.
-/
namespace ScriptAtlas

namespace Parameter

variable {s : Text} {p : Parameter} {c : Char}

/-- What a part of a parameter list gives: a name, and texts without blank ends in which
    nothing stands that ends them. -/
structure Tidy (p : Parameter) : Prop where
  named : p.name ≠ []
  name : Text.trim p.name = p.name
  type : Text.trim p.type = p.type
  default : Text.trim p.default = p.default
  colon : ':' ∉ p.name
  equals : '=' ∉ p.type
  quote : '"' ∉ p.default

theorem tidy_of_ofText? (made : ofText? s = some p) : Tidy p := by
  obtain ⟨name, rest, cut, visible, rfl⟩ := ofText?_eq_some_iff.mp made
  obtain ⟨ends, -⟩ := Text.cutAt_eq_some_iff.mp cut
  have named : Text.trim name ≠ [] := by
    rw [ne_eq, Text.trim_eq_nil_iff, visible]
    exact Bool.false_ne_true
  have colon : ':' ∉ Text.trim name := fun member => ends (Text.mem_of_mem_trim member)
  rw [written]
  cases value : Text.cutAt '=' rest with
  | none =>
    have equals : '=' ∉ Text.trim rest := fun member =>
      Text.cutAt_eq_none_iff.mp value (Text.mem_of_mem_trim member)
    exact ⟨named, Text.trim_trim name, Text.trim_trim rest, rfl, colon, equals, List.not_mem_nil⟩
  | some parts =>
    obtain ⟨typeEnds, -⟩ := Text.cutAt_eq_some_iff.mp value
    have equals : '=' ∉ Text.trim parts.1 := fun member => typeEnds (Text.mem_of_mem_trim member)
    have quote : '"' ∉ Text.trim (Text.without ['"'] parts.2) := fun member =>
      Text.not_mem_without _ parts.2 (Text.mem_of_mem_trim member)
    exact ⟨named, Text.trim_trim name, Text.trim_trim _, Text.trim_trim _, colon, equals, quote⟩

/-- The label of a tidy parameter is read as that parameter. -/
theorem ofText?_label (tidy : Tidy p) : ofText? p.label = some p := by
  obtain ⟨name, type, default⟩ := p
  obtain ⟨named, trimmedName, trimmedType, trimmedDefault, colon, equals, quote⟩ := tidy
  have visible : Text.allBlank name = false := by
    rw [← Bool.not_eq_true, ← Text.trim_eq_nil_iff, trimmedName]
    exact named
  have space : Text.isBlank ' ' = true := Text.isBlank_space
  cases default with
  | nil =>
    have whole : label ⟨name, type, []⟩ = name ++ ':' :: (' ' :: type) := by simp [label, hasDefault]
    have valued : '=' ∉ ' ' :: type := List.not_mem_cons_of_ne_of_not_mem (by decide) equals
    refine ofText?_eq_some_iff.mpr ⟨name, ' ' :: type, ?_, visible, ?_⟩
    · rw [whole, Text.cutAt_append colon]
    · rw [written, Text.cutAt_eq_none_iff.mpr valued, Text.trim_cons space, trimmedName, trimmedType]
  | cons x value =>
    have whole : label ⟨name, type, x :: value⟩ =
        name ++ ':' :: ((' ' :: (type ++ [' '])) ++ '=' :: (' ' :: x :: value)) := by simp [label, hasDefault]
    have valued : '=' ∉ ' ' :: (type ++ [' ']) := by simpa using equals
    have unquoted : Text.without ['"'] (' ' :: x :: value) = ' ' :: x :: value :=
      Text.without_of_not_mem (List.not_mem_cons_of_ne_of_not_mem (by decide) quote)
    refine ofText?_eq_some_iff.mpr
      ⟨name, (' ' :: (type ++ [' '])) ++ '=' :: (' ' :: x :: value), ?_, visible, ?_⟩
    · rw [whole, Text.cutAt_append colon]
    · have typed : Text.trim (' ' :: (type ++ [' '])) = type := by
        rw [Text.trim_cons space, Text.trim_append_blank type (by decide), trimmedType]
      rw [written, Text.cutAt_append valued]
      simp only [unquoted, typed, Text.trim_cons space, trimmedName, trimmedDefault]

theorem mem_label (member : c ∈ p.label) : c ∈ " :=".toList ∨ c ∈ p.name ∨ c ∈ p.type ∨ c ∈ p.default := by
  have colon : ": ".toList ⊆ " :=".toList := by decide
  have equals : " = ".toList ⊆ " :=".toList := by decide
  rw [label, List.mem_append, List.mem_append, List.mem_append] at member
  rcases member with ((name | own) | type) | default
  · exact .inr (.inl name)
  · exact .inl (colon own)
  · exact .inr (.inr (.inl type))
  · split at default
    · rcases List.mem_append.mp default with own | default
      · exact .inl (equals own)
      · exact .inr (.inr (.inr default))
    · cases default

/-- A label has no characters but its own and those of the part that was read. -/
theorem mem_of_mem_label (made : ofText? s = some p) (member : c ∈ p.label) : c ∈ " :=".toList ∨ c ∈ s := by
  obtain ⟨name, rest, cut, -, rfl⟩ := ofText?_eq_some_iff.mp made
  obtain ⟨-, rfl⟩ := Text.cutAt_eq_some_iff.mp cut
  have texts := mem_label member
  rw [written] at texts
  cases value : Text.cutAt '=' rest with
  | none =>
    rw [value] at texts
    rcases texts with own | inName | inType | inDefault
    · exact .inl own
    · exact .inr (List.mem_append_left _ (Text.mem_of_mem_trim inName))
    · exact .inr (List.mem_append_right name (List.mem_cons_of_mem _ (Text.mem_of_mem_trim inType)))
    · cases inDefault
  | some parts =>
    obtain ⟨-, rfl⟩ := Text.cutAt_eq_some_iff.mp value
    rw [value] at texts
    rcases texts with own | inName | inType | inDefault
    · exact .inl own
    · exact .inr (List.mem_append_left _ (Text.mem_of_mem_trim inName))
    · have behind := List.mem_append_left ('=' :: parts.2) (Text.mem_of_mem_trim inType)
      exact .inr (List.mem_append_right name (List.mem_cons_of_mem _ behind))
    · have kept := (List.mem_filter.mp (Text.mem_of_mem_trim inDefault)).1
      have behind := List.mem_append_right parts.1 (List.mem_cons_of_mem '=' kept)
      exact .inr (List.mem_append_right name (List.mem_cons_of_mem _ behind))

/-- The names and types of tidy parameters hold no return mark that the label completes. -/
theorem Tidy.unmarked_label (tidy : Tidy p) (type : ¬ Signature.returnMark <:+: p.type)
    (default : ¬ Signature.returnMark <:+: p.default) : ¬ Signature.returnMark <:+: p.label := by
  have space : ' ' ∉ Signature.returnMark := by decide
  -- A single colon stands behind the name, and a space behind that.
  have name : ¬ Signature.returnMark <:+: p.name ++ [':'] := fun found => by
    have twice := found.sublist.count_le ':'
    rw [List.count_append, List.count_eq_zero.mpr tidy.colon] at twice
    exact absurd twice (by decide)
  rw [label]
  split
  · have whole : p.name ++ ": ".toList ++ p.type ++ (" = ".toList ++ p.default) =
        (p.name ++ [':']) ++ ' ' :: (p.type ++ ' ' :: (['='] ++ ' ' :: p.default)) := by simp
    have equals : ¬ Signature.returnMark <:+: ['='] := Text.hasPart_iff_infix.not.mp (by decide)
    rw [whole, Text.infix_append_cons_iff space, Text.infix_append_cons_iff space, Text.infix_append_cons_iff space]
    simp only [not_or]
    exact ⟨name, type, equals, default⟩
  · have whole : p.name ++ ": ".toList ++ p.type ++ [] = (p.name ++ [':']) ++ ' ' :: p.type := by simp
    rw [whole, Text.infix_append_cons_iff space, not_or]
    exact ⟨name, type⟩

end Parameter

namespace Signature

variable {line : Text} {s : Signature} {ps : List Parameter}

/-- What a line gives: a name and a return type without blank ends, and tidy parameters,
    and nothing in them that ends the text in which it stands. -/
structure Tidy (s : Signature) : Prop where
  name : Text.trim s.name = s.name
  opening : '(' ∉ s.name
  parameters : ∀ p ∈ s.parameters, p.Tidy
  apart : ∀ p ∈ s.parameters, ',' ∉ p.label ∧ ')' ∉ p.label
  returns : Text.trim s.returns = s.returns
  colon : ':' ∉ s.returns

theorem tidy_returnOf (line : Text) : Text.trim (returnOf line) = returnOf line ∧ ':' ∉ returnOf line := by
  rw [returnOf]
  cases Text.cutAtText returnMark line with
  | none => exact ⟨by decide, by decide⟩
  | some parts =>
    exact ⟨Text.trim_trim _, fun member => Text.not_mem_without _ parts.2 (Text.mem_of_mem_trim member)⟩

theorem tidy_of_ofLine? (signed : ofLine? line = some s) : Tidy s := by
  rw [ofLine?] at signed
  split at signed
  · obtain ⟨⟨head, rest⟩, cut, rfl⟩ := Option.map_eq_some_iff.mp signed
    obtain ⟨closed, -⟩ := Text.cutAt_eq_some_iff.mp cut
    obtain ⟨returns, colon⟩ := tidy_returnOf line
    have opening : '(' ∉ nameOf head := fun member => by
      rw [nameOf] at member
      cases spaced : Text.cutAt ' ' head with
      | none =>
        rw [spaced] at member
        cases Text.mem_of_mem_trim member
      | some parts =>
        obtain ⟨-, rfl⟩ := Text.cutAt_eq_some_iff.mp spaced
        rw [spaced] at member
        exact closed (List.mem_append_right _ (List.mem_cons_of_mem _ (Text.mem_of_mem_trim member)))
    refine ⟨Text.trim_trim _, opening, fun p listed => ?_, fun p listed => ?_, returns, colon⟩
    · obtain ⟨part, -, made⟩ := List.mem_filterMap.mp listed
      exact Parameter.tidy_of_ofText? made
    · obtain ⟨part, member, made⟩ := List.mem_filterMap.mp listed
      refine ⟨fun comma => ?_, fun closing => ?_⟩
      · exact Text.not_mem_of_mem_pieces part member ((Parameter.mem_of_mem_label made comma).resolve_left (by decide))
      · have inside := (Parameter.mem_of_mem_label made closing).resolve_left (by decide)
        exact Text.not_mem_before ')' rest (Text.subset_of_mem_pieces member inside)
  · cases signed

/-! ### The list of a label -/

/-- The parameter list that a label writes. -/
def labelList (ps : List Parameter) : Text := Text.joinWith ", ".toList (ps.map (·.label))

theorem labelList_singleton (p : Parameter) : labelList [p] = p.label := by simp [labelList, Text.joinWith]

theorem labelList_cons (p q : Parameter) (rest : List Parameter) :
    labelList (p :: q :: rest) = p.label ++ ',' :: (' ' :: labelList (q :: rest)) := by
  simp [labelList, Text.joinWith, List.intercalate_cons_cons]

/-- What the labels have in common the list has, if a comma and a space keep it. -/
theorem labelList_induction {motive : Text → Prop} (empty : motive []) (single : ∀ p ∈ ps, motive p.label)
    (joined : ∀ p ∈ ps, ∀ list, motive list → motive (p.label ++ ',' :: (' ' :: list))) : motive (labelList ps) := by
  induction ps with
  | nil => exact empty
  | cons p rest ih =>
    have ih := ih (fun q later => single q (List.mem_cons_of_mem p later))
      (fun q later => joined q (List.mem_cons_of_mem p later))
    cases rest with
    | nil =>
      rw [labelList_singleton]
      exact single p List.mem_cons_self
    | cons q rest =>
      rw [labelList_cons]
      exact joined p List.mem_cons_self _ ih

theorem not_mem_labelList {c : Char} (absent : ∀ p ∈ ps, c ∉ p.label) (comma : c ≠ ',') (space : c ≠ ' ') :
    c ∉ labelList ps := by
  refine labelList_induction (motive := fun list => c ∉ list) List.not_mem_nil absent fun p member list free => ?_
  simp only [List.mem_append, List.mem_cons, not_or]
  exact ⟨absent p member, comma, space, free⟩

theorem unmarked_labelList (unmarked : ∀ p ∈ ps, ¬ returnMark <:+: p.label) : ¬ returnMark <:+: labelList ps := by
  have empty : ¬ returnMark <:+: [] := Text.hasPart_iff_infix.not.mp (by decide)
  refine labelList_induction (motive := fun list => ¬ returnMark <:+: list) empty unmarked fun p member list free => ?_
  rw [Text.infix_append_cons_iff (by decide), ← List.nil_append (' ' :: list), Text.infix_append_cons_iff (by decide),
    not_or, not_or]
  exact ⟨unmarked p member, empty, free⟩

theorem parametersOf_space (list : Text) : parametersOf (' ' :: list) = parametersOf list := by
  obtain ⟨rest, first⟩ := Text.pieces_eq_cons ',' list
  have spaced : Text.pieces ',' (' ' :: list) = (' ' :: Text.before ',' list) :: rest := by
    rw [Text.pieces, if_neg (by decide), first, Text.growFirst]
  have same : Parameter.ofText? (' ' :: Text.before ',' list) = Parameter.ofText? (Text.before ',' list) := by
    rw [Parameter.ofText?, Parameter.ofText?, Text.trim_cons Text.isBlank_space]
  rw [parametersOf, parametersOf, spaced, first, List.filterMap_cons, List.filterMap_cons, same]

/-- The list of a label is read as the parameters that it was written for. -/
theorem parametersOf_labelList (tidy : ∀ p ∈ ps, p.Tidy) (apart : ∀ p ∈ ps, ',' ∉ p.label) :
    parametersOf (labelList ps) = ps := by
  induction ps with
  | nil => rfl
  | cons p rest ih =>
    have read := Parameter.ofText?_label (tidy p List.mem_cons_self)
    have single := apart p List.mem_cons_self
    have ih := ih (fun q later => tidy q (List.mem_cons_of_mem p later))
      (fun q later => apart q (List.mem_cons_of_mem p later))
    cases rest with
    | nil =>
      rw [labelList_singleton, parametersOf, Text.pieces_of_not_mem single, List.filterMap_cons, read,
        List.filterMap_nil]
    | cons q rest =>
      have later : parametersOf (' ' :: labelList (q :: rest)) = q :: rest := by rw [parametersOf_space, ih]
      rw [parametersOf] at later
      rw [labelList_cons, parametersOf, Text.pieces_append single, List.filterMap_cons, read, later]

/-! ### The label -/

theorem returnOf_clause (returns : Text) (trimmed : Text.trim returns = returns) (colon : ':' ∉ returns) :
    returnOf (" :: ".toList ++ returns) = returns := by
  have cut : Text.cutAtText returnMark (" :: ".toList ++ returns) = some ([' '], ' ' :: returns) := rfl
  have kept : Text.without [':'] (' ' :: returns) = ' ' :: returns :=
    Text.without_of_not_mem (List.not_mem_cons_of_ne_of_not_mem (by decide) colon)
  rw [returnOf, cut]
  simp only [kept, Text.trim_cons Text.isBlank_space, trimmed]

theorem label_eq (s : Signature) :
    s.label = s.name ++ '(' :: (labelList s.parameters ++ ')' :: (" :: ".toList ++ s.returns)) := by
  rw [label, List.append_assoc, List.append_assoc]
  rfl

/-- The label of a tidy signature is the declaration of that signature, if its name and its
    list hold no return mark. -/
theorem ofLine?_label (tidy : Tidy s) (unnamed : ¬ returnMark <:+: s.name)
    (unlisted : ∀ p ∈ s.parameters, ¬ returnMark <:+: p.label) :
    ofLine? ("function ".toList ++ s.label) = some s := by
  have whole : "function ".toList ++ s.label =
      declaration s.name (labelList s.parameters) (" :: ".toList ++ s.returns) := by
    rw [label_eq, ← List.append_assoc]
    rfl
  have closing : ')' ∉ labelList s.parameters :=
    not_mem_labelList (fun p listed => (tidy.apart p listed).2) (by decide) (by decide)
  have parameters : parametersOf (labelList s.parameters) = s.parameters :=
    parametersOf_labelList tidy.parameters fun p listed => (tidy.apart p listed).1
  rw [whole, ofLine?_declaration_eq _ _ tidy.opening, Text.before_eq_self closing, parameters, tidy.name,
    returnOf_declaration_of_unmarked unnamed (unmarked_labelList unlisted),
    returnOf_clause s.returns tidy.returns tidy.colon]

/-- The label that the outline shows for a function with a signature is read as the same
    signature, whatever line the signature was read from, if no return mark is in the name,
    a type or a default value. -/
theorem ofLine?_labelOf (signed : ofLine? line = some s) (unnamed : ¬ returnMark <:+: s.name)
    (unlisted : ∀ p ∈ s.parameters, ¬ returnMark <:+: p.type ∧ ¬ returnMark <:+: p.default) :
    ofLine? ("function ".toList ++ Outline.labelOf (.function (some s)) line) = some s := by
  have tidy := tidy_of_ofLine? signed
  refine ofLine?_label tidy unnamed fun p listed => ?_
  obtain ⟨type, default⟩ := unlisted p listed
  exact (tidy.parameters p listed).unmarked_label type default

/-- A line that is read as parameters with odd texts: a type that begins with a colon, one
    that is empty, and a default value that begins with an equals sign. -/
def oddDeclaration : Text := "FUNCTION give) (a : : item:,, b:= \"=c\" , d e = f:g)) ::  number: (x) ".toList

theorem ofLine?_labelOf_oddDeclaration :
    ∃ s, ofLine? oddDeclaration = some s ∧ ¬ returnMark <:+: s.name ∧
      (∀ p ∈ s.parameters, ¬ returnMark <:+: p.type ∧ ¬ returnMark <:+: p.default) ∧
      s.parameters.length = 3 ∧
      ofLine? ("function ".toList ++ Outline.labelOf (.function (some s)) oddDeclaration) = some s := by
  obtain ⟨s, signed, unnamed, unlisted, length⟩ :
      ∃ s, ofLine? oddDeclaration = some s ∧ Text.hasPart returnMark s.name = false ∧
        (∀ p ∈ s.parameters, Text.hasPart returnMark p.type = false ∧ Text.hasPart returnMark p.default = false) ∧
        s.parameters.length = 3 := ⟨_, rfl, by decide, by decide, by decide⟩
  simp only [← Bool.not_eq_true, Text.hasPart_iff_infix] at unnamed unlisted
  exact ⟨s, signed, unnamed, unlisted, length, ofLine?_labelOf signed unnamed unlisted⟩

end Signature
end ScriptAtlas
