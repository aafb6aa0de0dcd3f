import ScriptAtlas.Proofs.Line.NestedParameters

/-!
The return type beside the parameter list. The name of a function is cut out before its
list, but the return type is what follows the first return mark of the line, wherever
that stands. So two lists at the same place of a line leave the name as it is, and the
return type exactly if they put the same text behind the first mark
(`name_and_returns_of_declaration`).
-/
namespace ScriptAtlas.Signature

section
variable {s l r : Text} {c : Char}

/-- A mark that is found in a text stays the first one when the text goes on. -/
theorem returnOf_append (cut : Text.cutAtText returnMark s = some (l, r)) (t : Text) :
    returnOf (s ++ t) = Text.trim (Text.without [':'] (r ++ t)) := by
  rw [returnOf, Text.cutAtText_append cut]

/-- A text without a mark has no part in the return type, if a character that is not in
    the mark follows it. -/
theorem returnOf_append_cons (other : c ∉ returnMark) (free : ¬ returnMark <:+: l) (r : Text) :
    returnOf (l ++ c :: r) = returnOf r := by
  rw [returnOf, returnOf, Text.cutAtText_append_cons other free]
  cases Text.cutAtText returnMark r <;> rfl

theorem count_returnOf_le (line : Text) : (returnOf line).count ')' ≤ line.count ')' := by
  rw [returnOf]
  cases cut : Text.cutAtText returnMark line with
  | none => exact Nat.zero_le _
  | some parts =>
    rw [Text.eq_of_cutAtText cut, List.count_append, List.count_append, Text.count_trim (by decide),
      Text.count_without (by decide)]
    omega

end

/-! ### What a parameter list puts into the return type -/

/-- What a parameter list puts behind the first return mark of its line, without colons:
    all of it if the mark stands in the name before the list, else what follows the first
    mark in it. -/
def carried (name list : Text) : Option Text :=
  if Text.hasPart returnMark name then some (Text.without [':'] list)
  else (Text.cutAtText returnMark list).map fun (_, behind) => Text.trimStart (Text.without [':'] behind)

theorem returnOf_declaration (name list rest : Text) :
    returnOf (declaration name list rest) = returnOf (name ++ '(' :: (list ++ ')' :: rest)) := by
  have keyword : declaration name list rest = "function".toList ++ ' ' :: (name ++ '(' :: (list ++ ')' :: rest)) := rfl
  have free : ¬ returnMark <:+: "function".toList := Text.hasPart_iff_infix.not.mp (by decide)
  rw [keyword, returnOf_append_cons (by decide) free]

theorem returnOf_declaration_of_unmarked {name list : Text} (unnamed : ¬ returnMark <:+: name)
    (unlisted : ¬ returnMark <:+: list) (rest : Text) : returnOf (declaration name list rest) = returnOf rest := by
  rw [returnOf_declaration, returnOf_append_cons (by decide) unnamed, returnOf_append_cons (by decide) unlisted]

/-- The return type holds what the list puts into it, between texts that do not depend
    on the list. -/
theorem exists_returnOf_declaration (name rest : Text) :
    ∃ lead, ∀ list, returnOf (declaration name list rest) =
      match carried name list with
      | some text => lead ++ text ++ ')' :: Text.trimEnd (Text.without [':'] rest)
      | none => returnOf rest := by
  cases named : Text.cutAtText returnMark name with
  | some parts =>
    have marked : Text.hasPart returnMark name = true := by
      rw [Text.hasPart_iff_infix]
      by_contra free
      rw [Text.cutAtText_eq_none_iff.mpr free] at named
      cases named
    refine ⟨Text.trimStart (Text.without [':'] parts.2) ++ ['('], fun list => ?_⟩
    rw [returnOf_declaration, carried, if_pos marked, returnOf_append named, Text.without_append_cons (by decide),
      Text.without_append_cons (by decide), Text.trim, Text.trimStart_append_cons (by decide),
      Text.trimEnd_append_cons (by decide), Text.trimEnd_append_cons (by decide)]
    simp
  | none =>
    have free := Text.cutAtText_eq_none_iff.mp named
    have unmarked : ¬ Text.hasPart returnMark name = true := fun marked => free (Text.hasPart_iff_infix.mp marked)
    refine ⟨[], fun list => ?_⟩
    rw [returnOf_declaration, carried, if_neg unmarked, returnOf_append_cons (by decide) free]
    cases listed : Text.cutAtText returnMark list with
    | some parts =>
      rw [returnOf_append listed, Text.without_append_cons (by decide), Text.trim,
        Text.trimStart_append_cons (by decide), Text.trimEnd_append_cons (by decide)]
      rfl
    | none => exact returnOf_append_cons (by decide) (Text.cutAtText_eq_none_iff.mp listed) rest

/-- A list that puts a text into the return type puts its closing parenthesis there too,
    which a list without a mark does not. -/
theorem returnOf_ne_of_carried (lead text rest : Text) :
    lead ++ text ++ ')' :: Text.trimEnd (Text.without [':'] rest) ≠ returnOf rest := by
  intro same
  have kept : (Text.trimEnd (Text.without [':'] rest)).count ')' = rest.count ')' := by
    rw [← Text.count_trim (by decide), Text.trim_trimEnd, Text.count_trim (by decide), Text.count_without (by decide)]
  have fewer := count_returnOf_le rest
  rw [← same, List.count_append, List.count_cons_self, kept] at fewer
  omega

theorem returnOf_declaration_eq_iff (name list other rest : Text) :
    returnOf (declaration name list rest) = returnOf (declaration name other rest) ↔
      carried name list = carried name other := by
  obtain ⟨lead, returns⟩ := exists_returnOf_declaration name rest
  rw [returns, returns]
  cases carried name list with
  | none =>
    cases carried name other with
    | none => exact iff_of_true rfl rfl
    | some text => exact iff_of_false (returnOf_ne_of_carried lead text rest).symm (Option.some_ne_none text).symm
  | some text =>
    cases carried name other with
    | none => exact iff_of_false (returnOf_ne_of_carried lead text rest) (Option.some_ne_none text)
    | some text' => simp

/-- Two parameter lists at the same place of a line, whatever they hold, leave the name of
    the function as it is. They leave the return type as it is exactly if they put the same
    text behind the first return mark of the line. With no mark in the name nor in the list
    the return type is the one that is written behind the list. -/
theorem name_and_returns_of_declaration {name : Text} (closed : '(' ∉ name) (list other rest : Text) :
    ∃ s t, ofLine? (declaration name list rest) = some s ∧ ofLine? (declaration name other rest) = some t ∧
      s.name = t.name ∧ (s.returns = t.returns ↔ carried name list = carried name other) ∧
      (¬ returnMark <:+: name → ¬ returnMark <:+: list → s.returns = returnOf rest) :=
  ⟨_, _, ofLine?_declaration_eq list rest closed, ofLine?_declaration_eq other rest closed, rfl,
    returnOf_declaration_eq_iff name list other rest,
    fun unnamed unlisted => returnOf_declaration_of_unmarked unnamed unlisted rest⟩

/-- Lists that differ before their marks only give the same return type. -/
theorem name_and_returns_of_declaration_same_default :
    '(' ∉ "give".toList ∧
    ∃ s t, ofLine? (declaration "give".toList "a: item = \"x::y\"".toList " :: number".toList) = some s ∧
      ofLine? (declaration "give".toList "b: text, c: item = \"z:: y\"".toList " :: number".toList) = some t ∧
      s.name = t.name ∧ s.returns = t.returns := by
  refine ⟨by decide, ?_⟩
  obtain ⟨s, t, first, second, named, returned, -⟩ :=
    name_and_returns_of_declaration (show '(' ∉ "give".toList by decide) "a: item = \"x::y\"".toList
      "b: text, c: item = \"z:: y\"".toList " :: number".toList
  exact ⟨s, t, first, second, named, returned.mpr (by decide)⟩

/-- A mark in a default value moves the return type. -/
theorem returns_moved_by_default :
    '(' ∉ "f".toList ∧ ')' ∉ "a: text".toList ∧ ')' ∉ "a: text = \"x::y\"".toList ∧
    ∃ s t, ofLine? (declaration "f".toList "a: text".toList " :: number".toList) = some s ∧
      ofLine? (declaration "f".toList "a: text = \"x::y\"".toList " :: number".toList) = some t ∧
      s.returns = "number".toList ∧ t.returns = "y\")  number".toList ∧ s.returns ≠ t.returns := by
  refine ⟨by decide, by decide, by decide, _, _, rfl, rfl, ?_⟩
  decide

end ScriptAtlas.Signature
