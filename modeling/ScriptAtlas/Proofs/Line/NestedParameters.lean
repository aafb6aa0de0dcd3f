import ScriptAtlas.Line.Signature
import ScriptAtlas.Proofs.Text.Parts

/-!
Parameter lists with parentheses of their own. The list of a declaration ends at the
parenthesis that matches the first one (`enclosed_eq_some_iff`), while the parameters are
read up to the first closing parenthesis. So the parameter of the part that the first
closing parenthesis stands in is cut short or lost, those of the parts behind it are
lost, and all others are as declared (`parameters_of_declaration`).
-/
namespace ScriptAtlas

namespace Parameter

variable {s : Text} {p q : Parameter}

/-- A part of a list declares a parameter with a colon and a name before it. -/
def Declares (part : Text) : Prop :=
  ∃ name rest, part = name ++ ':' :: rest ∧ ':' ∉ name ∧ Text.allBlank name = false

/-- The parameter with the given texts before and after its colon. -/
def written (name rest : Text) : Parameter :=
  match Text.cutAt '=' rest with
  | some (type, value) => ⟨Text.trim name, Text.trim type, Text.trim (Text.without ['"'] value)⟩
  | none => ⟨Text.trim name, Text.trim rest, []⟩

theorem written_trimStart (name rest : Text) : written (Text.trimStart name) rest = written name rest := by
  rw [written, written, Text.trim_trimStart]

theorem written_trimEnd (name rest : Text) : written name (Text.trimEnd rest) = written name rest := by
  rw [written, written, Text.cutAt_trimEnd (by decide)]
  cases Text.cutAt '=' rest with
  | none => exact congrArg (Parameter.mk _ · _) (Text.trim_trimEnd rest)
  | some parts => exact congrArg (Parameter.mk _ _) (Text.trim_without_trimEnd ['"'] parts.2)

/-- The blanks around a part do not matter. -/
theorem ofText?_eq_some_iff :
    ofText? s = some p ↔
      ∃ name rest, Text.cutAt ':' s = some (name, rest) ∧ Text.allBlank name = false ∧ p = written name rest := by
  have cut : Text.cutAt ':' (Text.trim s) =
      (Text.cutAt ':' s).map fun parts => (Text.trimStart parts.1, Text.trimEnd parts.2) := by
    rw [Text.trim, Text.cutAt_trimEnd (by decide), Text.cutAt_trimStart (by decide), Option.map_map]
    rfl
  have form : ofText? s = (Text.cutAt ':' (Text.trim s)).bind fun parts =>
      if (Text.trim parts.1).isEmpty then none else some (written parts.1 parts.2) := by
    rw [ofText?]
    cases Text.cutAt ':' (Text.trim s) with
    | none => rfl
    | some parts =>
      simp only [Option.bind_some, written]
      cases Text.cutAt '=' parts.2 <;> rfl
  have blank : ∀ name, (Text.trim (Text.trimStart name)).isEmpty = Text.allBlank name := fun name => by
    rw [Text.trim_trimStart, Bool.eq_iff_iff, List.isEmpty_iff, Text.trim_eq_nil_iff]
  rw [form, cut]
  cases Text.cutAt ':' s with
  | none => simp
  | some parts =>
    obtain ⟨name, rest⟩ := parts
    simp only [Option.map_some, Option.bind_some, blank, written_trimStart, written_trimEnd, Option.some.injEq,
      Prod.mk.injEq]
    cases visible : Text.allBlank name <;> simp [eq_comm, visible]

theorem isSome_ofText?_iff : (ofText? s).isSome ↔ Declares s := by
  rw [Option.isSome_iff_exists]
  constructor
  · rintro ⟨p, made⟩
    obtain ⟨name, rest, cut, visible, -⟩ := ofText?_eq_some_iff.mp made
    obtain ⟨absent, whole⟩ := Text.cutAt_eq_some_iff.mp cut
    exact ⟨name, rest, whole, absent, visible⟩
  · rintro ⟨name, rest, rfl, absent, visible⟩
    exact ⟨_, ofText?_eq_some_iff.mpr ⟨name, rest, Text.cutAt_append absent rest, visible, rfl⟩⟩

/-- A closing parenthesis behind a colon is in the type or in the default value. -/
theorem mem_written_iff (name rest : Text) :
    ')' ∈ (written name rest).type ∨ ')' ∈ (written name rest).default ↔ ')' ∈ rest := by
  have trimmed : ∀ s, ')' ∈ Text.trim s ↔ ')' ∈ s := fun s => Text.mem_trim (by decide)
  have unquoted : ∀ s, ')' ∈ Text.without ['"'] s ↔ ')' ∈ s := fun s => by
    rw [Text.without, List.mem_filter, and_iff_left (by decide)]
  rw [written]
  cases cut : Text.cutAt '=' rest with
  | none => simp [trimmed]
  | some parts =>
    obtain ⟨-, rfl⟩ := Text.cutAt_eq_some_iff.mp cut
    simp [trimmed, unquoted]

theorem Declares.append (declares : Declares s) (t : Text) : Declares (s ++ t) := by
  obtain ⟨name, rest, rfl, absent, visible⟩ := declares
  exact ⟨name, rest ++ t, by rw [List.append_assoc, List.cons_append], absent, visible⟩

/-- A part that goes on with a closing parenthesis declares another parameter. -/
theorem ne_of_parenthesis {t : Text} (free : ')' ∉ s) (short : ofText? s = some p)
    (long : ofText? (s ++ ')' :: t) = some q) : p ≠ q := by
  obtain ⟨name, rest, cut, -, rfl⟩ := ofText?_eq_some_iff.mp short
  obtain ⟨name', rest', cut', -, rfl⟩ := ofText?_eq_some_iff.mp long
  rw [Text.cutAt_append_of_some cut, Option.some.injEq, Prod.mk.injEq] at cut'
  obtain ⟨rfl, rfl⟩ := cut'
  intro same
  have inside := (mem_written_iff name (rest ++ ')' :: t)).mpr (List.mem_append_right _ List.mem_cons_self)
  rw [← same, mem_written_iff] at inside
  obtain ⟨-, rfl⟩ := Text.cutAt_eq_some_iff.mp cut
  exact free (List.mem_append_right _ (List.mem_cons_of_mem _ inside))

end Parameter

namespace Signature

/-! ### The end of the list -/

/-- How many parentheses are open behind a character, where `depth` are open before it. -/
def depthAfter (depth : Nat) (c : Char) : Nat :=
  if c = '(' then depth + 1 else if c = ')' then depth - 1 else depth

/-- Whether the parentheses of a text match each other and `depth` that are open before it. -/
def isBalanced : Nat → Text → Bool
  | depth, [] => depth == 0
  | depth, c :: s => !(depth == 0 && c == ')') && isBalanced (depthAfter depth c) s

/-- What stands before the closing parenthesis that has no counterpart in the text,
    where `depth` more parentheses are open before it. -/
def enclosed : Nat → Text → Option Text
  | _, [] => none
  | depth, c :: s => if depth = 0 ∧ c = ')' then some [] else (enclosed (depthAfter depth c) s).map (c :: ·)

/-- What stands between the first opening parenthesis of a line and its match. -/
def listOf? (line : Text) : Option Text := (Text.cutAt '(' line).bind fun (_, rest) => enclosed 0 rest

/-- The list ends at the parenthesis that matches the one before it. -/
theorem enclosed_eq_some_iff {depth : Nat} {s list : Text} :
    enclosed depth s = some list ↔ isBalanced depth list = true ∧ ∃ rest, s = list ++ ')' :: rest := by
  induction s generalizing depth list with
  | nil => simp [enclosed]
  | cons c s ih =>
    rw [enclosed]
    by_cases closes : depth = 0 ∧ c = ')'
    · rw [if_pos closes]
      obtain ⟨rfl, rfl⟩ := closes
      cases list with
      | nil => simp [isBalanced]
      | cons d list =>
        refine iff_of_false (by simp) ?_
        rintro ⟨balanced, rest, whole⟩
        obtain ⟨rfl, -⟩ := List.cons.inj whole
        simp [isBalanced] at balanced
    · rw [if_neg closes]
      cases list with
      | nil =>
        refine iff_of_false (by simp) ?_
        rintro ⟨balanced, rest, whole⟩
        exact closes ⟨beq_iff_eq.mp balanced, (List.cons.inj whole).1⟩
      | cons d list =>
        have passed : (!(depth == 0 && c == ')')) = true := by simpa [imp_iff_not_or] using closes
        simp only [Option.map_eq_some_iff, ih, List.cons_append, List.cons.injEq]
        constructor
        · rintro ⟨list, ⟨balanced, rest, whole⟩, rfl, rfl⟩
          exact ⟨by rw [isBalanced, passed, balanced, Bool.and_true], rest, rfl, whole⟩
        · rintro ⟨balanced, rest, rfl, whole⟩
          rw [isBalanced, Bool.and_eq_true] at balanced
          exact ⟨list, ⟨balanced.2, rest, whole⟩, rfl, rfl⟩

/-! ### The parameters of a list -/

/-- The parameters that a list declares, part by part. -/
def parametersOf (list : Text) : List Parameter := (Text.pieces ',' list).filterMap Parameter.ofText?

/-- The parameters up to the first closing parenthesis are those of the whole list
    exactly if no part from that parenthesis on declares one. -/
theorem parametersOf_before_eq_iff {list : Text} :
    parametersOf (Text.before ')' list) = parametersOf list ↔
      (')' ∈ list → ∀ part ∈ (Text.pieces ',' list).drop ((Text.before ')' list).count ','),
        ¬ Parameter.Declares part) := by
  by_cases nested : ')' ∈ list
  · obtain ⟨kept, lost, rfl, free⟩ := List.eq_append_cons_of_mem nested
    obtain ⟨init, last, length, inside, undivided, grows⟩ := Text.exists_pieces_append ',' kept
    have start : Text.before ')' (kept ++ ')' :: lost) = kept := Text.before_eq_of_cutAt (Text.cutAt_append free lost)
    have short : Text.pieces ',' kept = init ++ [last] := by
      have whole := grows []
      rwa [List.append_nil, List.append_nil, Text.pieces_of_not_mem undivided] at whole
    obtain ⟨later, long⟩ : ∃ later, Text.pieces ',' (kept ++ ')' :: lost) =
        init ++ (last ++ ')' :: Text.before ',' lost) :: later := by
      obtain ⟨later, first⟩ := Text.pieces_eq_cons ',' (last ++ ')' :: lost)
      refine ⟨later, ?_⟩
      rw [grows, first, Text.before_append undivided, Text.before, List.takeWhile_cons_of_pos (by decide)]
      rfl
    rw [imp_iff_right nested, start, ← length, parametersOf, parametersOf, short, long, List.drop_left,
      List.filterMap_append, List.filterMap_append, List.append_cancel_left_eq]
    generalize Text.before ',' lost = more
    constructor
    · intro same part member declares
      obtain ⟨q, made⟩ := Option.isSome_iff_exists.mp (Parameter.isSome_ofText?_iff.mpr declares)
      have listed : q ∈ ((last ++ ')' :: more) :: later).filterMap Parameter.ofText? :=
        List.mem_filterMap.mpr ⟨part, member, made⟩
      -- The part up to the parenthesis declares, and so does the whole part, but not the same.
      cases cut : Parameter.ofText? last with
      | none => simp [← same, cut] at listed
      | some p =>
        obtain ⟨r, whole⟩ := Option.isSome_iff_exists.mp (Parameter.isSome_ofText?_iff.mpr
          ((Parameter.isSome_ofText?_iff.mp (Option.isSome_of_mem cut)).append (')' :: more)))
        simp only [List.filterMap_cons, cut, whole, List.cons.injEq] at same
        exact Parameter.ne_of_parenthesis (fun member => free (inside member)) cut whole same.1
    · intro none
      have lost : ∀ part ∈ (last ++ ')' :: more) :: later, Parameter.ofText? part = .none := fun part member =>
        Option.not_isSome_iff_eq_none.mp fun some => none part member (Parameter.isSome_ofText?_iff.mp some)
      have cut : Parameter.ofText? last = .none := Option.not_isSome_iff_eq_none.mp fun some =>
        none _ List.mem_cons_self ((Parameter.isSome_ofText?_iff.mp some).append (')' :: more))
      rw [List.filterMap_eq_nil_iff.mpr lost]
      simp [cut]
  · rw [Text.before_eq_self nested]
    exact iff_of_true rfl fun inside => absurd inside nested

/-- The line that declares a function with a name and a parameter list, and what
    follows the list. -/
def declaration (name list rest : Text) : Text := "function ".toList ++ name ++ '(' :: (list ++ ')' :: rest)

theorem cutAt_declaration {name : Text} (list rest : Text) (closed : '(' ∉ name) :
    Text.cutAt '(' (declaration name list rest) = some ("function ".toList ++ name, list ++ ')' :: rest) := by
  refine Text.cutAt_append ?_ _
  rw [List.mem_append, not_or]
  exact ⟨by decide, closed⟩

theorem ofLine?_declaration_eq {name : Text} (list rest : Text) (closed : '(' ∉ name) :
    ofLine? (declaration name list rest) =
      some ⟨Text.trim name, parametersOf (Text.before ')' list), returnOf (declaration name list rest)⟩ := by
  have closes : (declaration name list rest).contains ')' = true := by
    rw [List.contains_iff_mem]
    unfold declaration
    exact List.mem_append_right _ (List.mem_cons_of_mem _ (List.mem_append_right _ List.mem_cons_self))
  rw [ofLine?, if_pos closes, cutAt_declaration list rest closed, ← Text.before_append_cons ')' list rest]
  rfl

theorem ofLine?_declaration {name : Text} (list rest : Text) (closed : '(' ∉ name) :
    ∃ signature, ofLine? (declaration name list rest) = some signature ∧
      signature.parameters = parametersOf (Text.before ')' list) :=
  ⟨_, ofLine?_declaration_eq list rest closed, rfl⟩

/-- The list of a declaration is what stands between its first parenthesis and the
    match of that, and a part of it declares with a colon and a name before that. The
    declaration has a signature, with the parameters that the list declares up to its
    first closing parenthesis; these are the parameters of the whole list exactly if no
    part from that parenthesis on declares one. -/
theorem parameters_of_declaration {name list : Text} (rest : Text) (closed : '(' ∉ name)
    (balanced : isBalanced 0 list = true) :
    listOf? (declaration name list rest) = some list ∧
    (∀ part, (Parameter.ofText? part).isSome ↔ Parameter.Declares part) ∧
    ∃ signature, ofLine? (declaration name list rest) = some signature ∧
      signature.parameters = parametersOf (Text.before ')' list) ∧
      (signature.parameters = parametersOf list ↔
        (')' ∈ list → ∀ part ∈ (Text.pieces ',' list).drop ((Text.before ')' list).count ','),
          ¬ Parameter.Declares part)) := by
  have enclosing : enclosed 0 (list ++ ')' :: rest) = some list := enclosed_eq_some_iff.mpr ⟨balanced, rest, rfl⟩
  obtain ⟨signature, signed, parameters⟩ := ofLine?_declaration list rest closed
  refine ⟨?_, fun part => Parameter.isSome_ofText?_iff, signature, signed, parameters, ?_⟩
  · rw [listOf?, cutAt_declaration list rest closed, Option.bind_some]
    exact enclosing
  · rw [parameters, parametersOf_before_eq_iff]

/-- Parentheses in a part that declares nothing do no harm. -/
theorem parameters_of_declaration_aside :
    '(' ∉ "greet".toList ∧ isBalanced 0 "a: text, (b), c".toList = true ∧
    ∃ signature, ofLine? (declaration "greet".toList "a: text, (b), c".toList " :: text".toList) = some signature ∧
      signature.parameters = parametersOf "a: text, (b), c".toList := by
  refine ⟨by decide, by decide, ?_⟩
  obtain ⟨-, -, signature, signed, -, whole⟩ :=
    parameters_of_declaration " :: text".toList (show '(' ∉ "greet".toList by decide)
      (show isBalanced 0 "a: text, (b), c".toList = true by decide)
  refine ⟨signature, signed, whole.mpr fun _ => ?_⟩
  simp only [← Parameter.isSome_ofText?_iff]
  decide

/-- A call in a default value is cut off at its parenthesis, and the parameter behind it is lost. -/
theorem parameters_lost_behind_call :
    listOf? "function f(a: text = g(1), b: number)".toList = some "a: text = g(1), b: number".toList ∧
    parametersOf "a: text = g(1), b: number".toList =
      [⟨"a".toList, "text".toList, "g(1)".toList⟩, ⟨"b".toList, "number".toList, []⟩] ∧
    (ofLine? "function f(a: text = g(1), b: number)".toList).map Signature.parameters =
      some [⟨"a".toList, "text".toList, "g(1".toList⟩] := by
  decide

end Signature
end ScriptAtlas
