import ScriptAtlas.Proofs.Line.Classification
import ScriptAtlas.Proofs.Text.Parts

/-!
The name of the variable of an assignment, told from the line. What stands in the braces
gives the variable (`assigns_iff`). The name of a global variable follows the
opening braces and the sign of an option, and stops at the first closing brace or path
mark (`exists_named`). A text stops at one place (`Stops.unique`), so the characters at
the ends of the name are known by what stands around them in the line
(`head?_name_iff`, `getLast?_name_iff`).
-/
namespace ScriptAtlas.Assignment

variable {content : Text} {a : Assignment}

/-! ### What stands in the braces -/

/-- What follows the brace that opens the name, and the second one of the element
    form, up to the next opening brace. -/
def opened (content : Text) : Text :=
  Text.before '{' ((Text.afterPrefix ['{'] (content.drop 5)).getD (content.drop 5))

/-- A line has the element form exactly if a second brace follows the first. -/
theorem elementForm?_of_begins (begins : Text.BeginsWith "set \x7b".toList content) :
    elementForm? content = some (['{'].isPrefixOf (content.drop 5)) := by
  have narrow : ∀ c ∈ content.take 3, c.toNat < 128 := begins.narrow_take (by decide) (by decide)
  have space : content[3]? = some ' ' := begins.getElem?_of_mark rfl (by decide) (by decide)
  have brace : content[4]? = some '{' := begins.getElem?_of_mark rfl (by decide) (by decide)
  have long : 3 ≤ content.length := Nat.le_of_lt (List.getElem?_eq_some_iff.mp space).1
  have tail : content.drop 3 = ' ' :: '{' :: content.drop 5 := by
    rw [List.drop_eq_getElem?_toList_append, space, List.drop_eq_getElem?_toList_append, brace]
    rfl
  rw [elementForm?, Text.dropBytes_of_narrow long narrow, tail]
  rfl

/-- The piece that is taken out of the line stands after the opening brace, or
    after the second one. -/
theorem piece_of_begins (begins : Text.BeginsWith "set \x7b".toList content) :
    (Text.pieces '{' content)[if ['{'].isPrefixOf (content.drop 5) then 2 else 1]? = some (opened content) := by
  have cut : Text.cutAt '{' content = some (content.take 4, content.drop 5) :=
    begins.cutAt_of_mark rfl (by decide) (by decide) (by decide)
  obtain ⟨apart, whole⟩ := Text.cutAt_eq_some_iff.mp cut
  have split : Text.pieces '{' content = content.take 4 :: Text.pieces '{' (content.drop 5) := by
    conv_lhs => rw [whole, Text.pieces_append apart]
  rw [split, opened]
  generalize content.drop 5 = opened
  by_cases double : ['{'].isPrefixOf opened = true
  · obtain ⟨rest, rfl⟩ := List.isPrefixOf_iff_prefix.mp double
    obtain ⟨more, first⟩ := Text.pieces_eq_cons '{' rest
    rw [if_pos double, Text.afterPrefix, if_pos double, List.singleton_append, Text.pieces, if_pos rfl, first]
    rfl
  · obtain ⟨more, first⟩ := Text.pieces_eq_cons '{' opened
    rw [if_neg double, Text.afterPrefix, if_neg double, first]
    rfl

/-- What follows the braces of an assignment, from what follows the first closing one. -/
def behind (content after : Text) : Text := if ['{'].isPrefixOf (content.drop 5) then (element after).2 else after

/-- An assignment can be taken apart if its braces are closed and the value is
    announced behind them; what is in the braces gives the variable. -/
theorem assigns_iff (begins : Text.BeginsWith "set \x7b".toList content) {name : Text} {visibility : Visibility} :
    (∃ a, ofLine? content = some a ∧ a.name = name ∧ a.visibility = visibility) ↔
      ∃ inner after, Text.cutAt '}' (opened content) = some (inner, after) ∧
        (∃ parts, Text.cutAtText "to".toList (behind content after) = some parts) ∧
        (variableOf (target inner).1).1 = name ∧ (variableOf (target inner).1).2.1 = visibility := by
  have rest : ∀ inner after, (if ['{'].isPrefixOf (content.drop 5) = true then element after
      else ((target inner).2, after)).2 = behind content after := by
    intro inner after
    rw [behind]
    split <;> rfl
  rw [ofLine?, elementForm?_of_begins begins]
  simp only [Option.bind_eq_bind, Option.bind_some, piece_of_begins begins, rest]
  constructor
  · rintro ⟨a, assigned, rfl, rfl⟩
    obtain ⟨⟨inner, after⟩, closed, assigned⟩ := Option.bind_eq_some_iff.mp assigned
    obtain ⟨parts, cut, made⟩ := Option.bind_eq_some_iff.mp assigned
    rw [← Option.some.inj made]
    exact ⟨inner, after, closed, ⟨parts, cut⟩, rfl, rfl⟩
  · rintro ⟨inner, after, closed, ⟨parts, cut⟩, rfl, rfl⟩
    simp only [closed, Option.bind_some, cut]
    exact ⟨_, rfl, rfl, rfl⟩

/-! ### Where a name stops -/

/-- A name in braces stops at the first closing brace or path mark. -/
structure Stops (name rest : Text) : Prop where
  closed : '}' ∉ name
  single : ¬ pathMark <:+: name
  stop : rest.head? = some '}' ∨ pathMark <+: rest ∧ name.getLast? ≠ some ':'

variable {name other rest more after inner : Text}

theorem Stops.append (stops : Stops name rest) (more : Text) : Stops name (rest ++ more) := by
  obtain ⟨closed, single, brace | ⟨mark, last⟩⟩ := stops
  · exact ⟨closed, single, .inl (by rw [List.head?_append, brace]; rfl)⟩
  · exact ⟨closed, single, .inr ⟨mark.trans (List.prefix_append rest more), last⟩⟩

theorem Stops.cons_brace (stops : Stops name rest) : Stops ('{' :: name) rest := by
  obtain ⟨closed, single, stop⟩ := stops
  refine ⟨by simpa using closed, ?_, stop.imp id (.imp id fun last => ?_)⟩
  · rw [List.infix_cons_iff, not_or]
    exact ⟨fun mark => absurd (List.cons_prefix_cons.mp mark).1 (by decide), single⟩
  · rw [List.getLast?_cons]
    cases final : name.getLast? with
    | none => simp
    | some c => simpa [final] using last

/-- What a name that stops further on has in addition would begin with what stops the other. -/
theorem Stops.eq_nil_of_append (first : Stops name (more ++ rest)) (second : Stops (name ++ more) rest) :
    more = [] := by
  cases more with
  | nil => rfl
  | cons x more =>
    exfalso
    rcases first.stop with brace | ⟨mark, -⟩
    · obtain rfl : x = '}' := by simpa using brace
      exact second.closed (by simp)
    · obtain ⟨rfl, next⟩ := List.cons_prefix_cons.mp mark
      cases more with
      | nil =>
        rcases second.stop with brace | ⟨-, last⟩
        · obtain ⟨after, rfl⟩ := next
          cases brace
        · exact last List.getLast?_concat
      | cons y more =>
        obtain ⟨rfl, -⟩ := List.cons_prefix_cons.mp next
        exact second.single ⟨name, more, by rw [List.append_assoc]; rfl⟩

theorem Stops.unique (first : Stops name rest) (second : Stops other after) (same : name ++ rest = other ++ after) :
    name = other := by
  rcases List.append_eq_append_iff.mp same with ⟨more, rfl, rfl⟩ | ⟨more, rfl, rfl⟩
  · rw [first.eq_nil_of_append second, List.append_nil]
  · rw [second.eq_nil_of_append first, List.append_nil]

theorem exists_stops_target (closed : '}' ∉ inner) (more : Text) :
    ∃ rest, inner ++ '}' :: more = (target inner).1 ++ rest ∧ Stops (target inner).1 rest := by
  rw [target]
  split
  · rename_i base path cut
    have whole := Text.eq_of_cutAtText cut
    obtain ⟨single, last⟩ := Text.free_of_cutAtText_doubled cut
    refine ⟨pathMark ++ (path ++ '}' :: more), by rw [whole]; simp, fun member => closed ?_, single, .inr ⟨?_, last⟩⟩
    · exact whole ▸ List.mem_append_left _ member
    · exact List.prefix_append ..
  · rename_i cut
    exact ⟨'}' :: more, rfl, closed, Text.cutAtText_eq_none_iff.mp cut, .inl rfl⟩

/-! ### The name in the line -/

/-- What can stand between the first brace of a line and the name of a global variable. -/
def leads : List Text := [[], ['{'], ['@'], ['{', '@']]

theorem exists_opened (content : Text) :
    ∃ double ∈ [[], ['{']], ∃ more, content.drop 5 = double ++ (opened content ++ more) := by
  have whole : ∀ s : Text, ∃ more, s = Text.before '{' s ++ more := fun s =>
    ⟨_, (List.takeWhile_append_dropWhile (p := (· != '{'))).symm⟩
  rw [opened, Text.afterPrefix]
  split
  · rename_i double
    obtain ⟨rest, double⟩ := List.isPrefixOf_iff_prefix.mp double
    obtain ⟨more, split⟩ := whole rest
    refine ⟨['{'], by simp, more, ?_⟩
    rw [← double]
    exact congrArg ('{' :: ·) split
  · obtain ⟨more, split⟩ := whole (content.drop 5)
    exact ⟨[], by simp, more, split⟩

theorem exists_sign {base : Text} (visible : (variableOf base).2.1 = .global) :
    ∃ sign ∈ [[], ['@']], base = sign ++ (variableOf base).1 ∧
      ((variableOf base).1.head? = some '@' → sign = ['@']) := by
  unfold variableOf at visible ⊢
  split at visible
  · cases visible
  · exact ⟨['@'], by simp, rfl, fun _ => rfl⟩
  · rename_i unsigned
    refine ⟨[], by simp, rfl, fun first => ?_⟩
    obtain ⟨name, whole⟩ := List.head?_eq_some_iff.mp first
    exact absurd whole (unsigned name)

/-- The name of a global variable follows one of the leads, up to where it stops. -/
theorem exists_named (begins : Keyword.Begins .set content) (assigned : ofLine? content = some a)
    (visible : a.visibility = .global) :
    ∃ lead ∈ leads, ∃ rest, content.drop 5 = lead ++ (a.name ++ rest) ∧ Stops (lead ++ a.name) rest ∧
      '{' ∉ a.name ∧ (a.name.head? = some '@' → '@' ∈ lead) := by
  obtain ⟨inner, after, cut, -, named, seen⟩ := (assigns_iff (begins.beginsWith rfl)).mp ⟨a, assigned, rfl, rfl⟩
  obtain ⟨closed, piece⟩ := Text.cutAt_eq_some_iff.mp cut
  obtain ⟨rest, split, stops⟩ := exists_stops_target closed after
  obtain ⟨double, doubled, more, whole⟩ := exists_opened content
  obtain ⟨sign, signed, base, marked⟩ := exists_sign (seen.trans visible)
  rw [named] at base marked
  rw [base] at split stops
  have free : '{' ∉ a.name := fun member => by
    have inside : '{' ∈ opened content := by
      rw [piece, split]
      simp [member]
    exact Text.not_mem_before '{' _ inside
  simp only [List.mem_cons, List.not_mem_nil, or_false] at doubled signed
  refine ⟨double ++ sign, ?_, rest ++ more, ?_, ?_, free, fun first => ?_⟩
  · rcases doubled with rfl | rfl <;> rcases signed with rfl | rfl <;> decide
  · rw [whole, piece, split]
    simp only [List.append_assoc]
  · rw [List.append_assoc]
    rcases doubled with rfl | rfl
    · exact stops.append more
    · exact (stops.append more).cons_brace
  · simp [marked first]

/-- A name begins with a blank character exactly if one follows a lead. -/
theorem head?_name_iff (begins : Keyword.Begins .set content) (assigned : ofLine? content = some a)
    (visible : a.visibility = .global) (named : a.name ≠ []) {c : Char} (blank : Text.isBlank c = true) :
    a.name.head? = some c ↔ ∃ l r, content.drop 5 = l ++ c :: r ∧ l ∈ leads := by
  obtain ⟨lead, leading, rest, whole, -, free, marked⟩ := exists_named begins assigned visible
  obtain ⟨first, name, same⟩ := List.exists_cons_of_ne_nil named
  rw [same] at whole free marked ⊢
  constructor
  · intro here
    obtain rfl := Option.some.inj here
    exact ⟨lead, name ++ rest, whole, leading⟩
  · rintro ⟨l, r, split, other⟩
    have brace : '{' ≠ c := Text.ne_of_isBlank (by decide) blank
    have sign : '@' ≠ c := Text.ne_of_isBlank (by decide) blank
    rw [whole] at split
    -- No character that belongs to a lead is blank or begins the name behind a shorter lead.
    simp only [leads, List.mem_cons, List.not_mem_nil, or_false] at leading other
    rcases leading with rfl | rfl | rfl | rfl <;> rcases other with rfl | rfl | rfl | rfl <;> simp_all

/-- A name ends in a blank character exactly if one stands before the first closing
    brace or path mark. -/
theorem getLast?_name_iff (begins : Keyword.Begins .set content) (assigned : ofLine? content = some a)
    (visible : a.visibility = .global) (named : a.name ≠ []) {c : Char} (blank : Text.isBlank c = true) :
    a.name.getLast? = some c ↔ ∃ l r, content.drop 5 = l ++ c :: r ∧
      '}' ∉ l ∧ ¬ pathMark <:+: l ∧ (r.head? = some '}' ∨ pathMark <+: r) := by
  obtain ⟨lead, -, rest, whole, stops, -, -⟩ := exists_named begins assigned visible
  constructor
  · intro last
    obtain ⟨name, same⟩ := List.getLast?_eq_some_iff.mp last
    rw [same, ← List.append_assoc] at stops
    refine ⟨lead ++ name, rest, by rw [whole, same]; simp, ?_, ?_, stops.stop.imp id And.left⟩
    · exact fun member => stops.closed (List.mem_append_left _ member)
    · exact fun inside => stops.single (inside.trans (List.prefix_append _ _).isInfix)
  · rintro ⟨l, r, split, closed, single, stop⟩
    have brace : '}' ≠ c := Text.ne_of_isBlank (by decide) blank
    have colon : ':' ≠ c := Text.ne_of_isBlank (by decide) blank
    have mark : c ∉ pathMark := by simpa [pathMark] using colon.symm
    have divided : Stops (l ++ [c]) r := by
      refine ⟨by simp [closed, brace], ?_, stop.imp id fun opens => ⟨opens, by simpa using colon.symm⟩⟩
      rw [Text.infix_append_cons_iff mark]
      simpa [pathMark] using single
    have same : lead ++ a.name = l ++ [c] := stops.unique divided (by rw [List.append_assoc, ← whole, split]; simp)
    have last := congrArg List.getLast? same
    rwa [List.getLast?_concat, List.getLast?_append_of_ne_nil _ named] at last

end ScriptAtlas.Assignment
