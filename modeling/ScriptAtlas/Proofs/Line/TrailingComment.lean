import ScriptAtlas.Proofs.Script.LetterCase
import ScriptAtlas.Proofs.Symbol.Names
import ScriptAtlas.Proofs.Text.Parts

/-!
Lines with a comment behind them. A comment behind a line, after an even number of
quotation marks, does not belong to its code (`Comment.code_of_trails`), so the key of
an option is the same. All else is taken from the line with its comment: what a
signature or an assignment that is there already says of the name stays
(`Signature.ofLine?_append`, `Assignment.ofLine?_append`), and a comment completes no
keyword with a mark after its space (`Trails.beginsWith_of_append`).
-/
namespace ScriptAtlas

/-! ### Texts that go on -/

namespace Text

variable {word s t : Text}

theorem BeginsWith.length_le (begins : BeginsWith word s) : word.length ≤ s.length := by
  obtain ⟨start, inside, same⟩ := begins
  rw [← List.length_map Char.toLower, beq_iff_eq.mp same, List.length_map]
  exact inside.length_le

theorem BeginsWith.append (begins : BeginsWith word s) (t : Text) : BeginsWith word (s ++ t) := by
  obtain ⟨start, inside, same⟩ := begins
  exact ⟨start, inside.trans (List.prefix_append s t), same⟩

/-- A word that is no longer than the text so far stands in it. -/
theorem BeginsWith.of_append (begins : BeginsWith word (s ++ t)) (long : word.length ≤ s.length) : BeginsWith word s := by
  obtain ⟨start, inside, same⟩ := begins
  have length : word.length = start.length := by
    rw [← List.length_map Char.toLower, beq_iff_eq.mp same, List.length_map]
  exact ⟨start, List.prefix_of_prefix_length_le inside (List.prefix_append s t) (length ▸ long), same⟩

theorem mem_of_mem_afterPrefix {start : Text} {c : Char} (member : c ∈ (afterPrefix start s).getD s) : c ∈ s := by
  rw [afterPrefix] at member
  split at member
  · exact List.mem_of_mem_drop member
  · exact member

theorem mem_of_cutAt {c : Char} {parts : Text × Text} (cut : cutAt c s = some parts) : c ∈ s := by
  obtain ⟨-, rfl⟩ := cutAt_eq_some_iff.mp cut
  exact List.mem_append_right _ List.mem_cons_self

theorem exists_before_append (c : Char) (s t : Text) : ∃ more, before c (s ++ t) = before c s ++ more := by
  by_cases member : c ∈ s
  · obtain ⟨l, r, rfl, -⟩ := List.eq_append_cons_of_mem member
    exact ⟨[], by rw [List.append_assoc, List.cons_append, before_append_cons, before_append_cons, List.append_nil]⟩
  · exact ⟨before c t, by rw [before_append member, before_eq_self member]⟩

/-- What is cut off at the beginning of a text is cut off the text that goes on, if the
    text so far decides whether it is there. -/
theorem afterPrefix_append {start : Text} {c : Char} (other : c ∉ start) (member : c ∈ s) (t : Text) :
    (afterPrefix start (s ++ t)).getD (s ++ t) = (afterPrefix start s).getD s ++ t := by
  rw [afterPrefix, afterPrefix]
  by_cases opens : start.isPrefixOf s = true
  · have opens := List.isPrefixOf_iff_prefix.mp opens
    rw [if_pos (List.isPrefixOf_iff_prefix.mpr opens),
      if_pos (List.isPrefixOf_iff_prefix.mpr (opens.trans (List.prefix_append s t))),
      List.drop_append_of_le_length opens.length_le]
    rfl
  · have closed : ¬ start.isPrefixOf (s ++ t) = true := by
      intro onwards
      rcases List.prefix_or_prefix_of_prefix (List.isPrefixOf_iff_prefix.mp onwards) (List.prefix_append s t) with
        inside | inside
      · exact opens (List.isPrefixOf_iff_prefix.mpr inside)
      · exact other (inside.subset member)
    rw [if_neg opens, if_neg closed]
    rfl

end Text

/-! ### Lines that go on -/

section
variable {content : Text}

theorem Signature.isSome_ofLine?_iff : (ofLine? content).isSome ↔ '(' ∈ content ∧ ')' ∈ content := by
  rw [ofLine?]
  by_cases closes : content.contains ')' = true
  · rw [if_pos closes, and_iff_left (List.contains_iff_mem.mp closes), Option.isSome_map, ← Option.not_isNone,
      Bool.not_eq_true', ← Bool.not_eq_true, Option.isNone_iff_eq_none, Text.cutAt_eq_none_iff, not_not]
  · rw [if_neg closes]
    exact iff_of_false (by simp) fun both => closes (List.contains_iff_mem.mpr both.2)

/-- The name of a function stands before its parameters, whatever follows. -/
theorem Signature.ofLine?_append {signature : Signature} (signed : ofLine? content = some signature) (t : Text) :
    ∃ longer, ofLine? (content ++ t) = some longer ∧ longer.name = signature.name := by
  rw [ofLine?] at signed
  split at signed
  · rename_i closes
    obtain ⟨⟨head, rest⟩, cut, rfl⟩ := Option.map_eq_some_iff.mp signed
    have closes : (content ++ t).contains ')' = true :=
      List.contains_iff_mem.mpr (List.mem_append_left t (List.contains_iff_mem.mp closes))
    rw [ofLine?, if_pos closes, Text.cutAt_append_of_some cut]
    exact ⟨_, rfl, rfl⟩
  · cases signed

namespace Assignment

theorem behind_append {after more : Text} (cut : ∃ parts, Text.cutAtText "to".toList (behind content after) = some parts) :
    behind content (after ++ more) = behind content after ++ more := by
  rw [behind] at cut ⊢
  rw [behind]
  split at cut
  · rename_i double
    rw [if_pos double, if_pos double, element, element]
    rw [element] at cut
    cases closed : Text.cutAt '}' ((Text.afterPrefix pathMark after).getD after) with
    | none =>
      rw [closed] at cut
      obtain ⟨parts, cut⟩ := cut
      cases cut
    | some parts =>
      have member : '}' ∈ after := Text.mem_of_mem_afterPrefix (Text.mem_of_cutAt closed)
      rw [Text.afterPrefix_append (by decide) member, Text.cutAt_append_of_some closed]
      rfl
  · rename_i single
    rw [if_neg single, if_neg single]

/-- An assignment that can be taken apart assigns the same variable, whatever follows. -/
theorem ofLine?_append {a : Assignment} (begins : Keyword.Begins .set content)
    (assigned : ofLine? content = some a) (t : Text) :
    ∃ longer, ofLine? (content ++ t) = some longer ∧ longer.name = a.name ∧ longer.visibility = a.visibility := by
  have begins := begins.beginsWith rfl
  obtain ⟨inner, after, closed, cut, named, visible⟩ := (assigns_iff begins).mp ⟨a, assigned, rfl, rfl⟩
  have member : '}' ∈ content.drop 5 :=
    Text.mem_of_mem_afterPrefix ((List.takeWhile_prefix _).subset (Text.mem_of_cutAt closed))
  have within : 5 ≤ content.length := by
    by_contra short
    rw [List.drop_eq_nil_of_le (by omega)] at member
    cases member
  have rest : (content ++ t).drop 5 = content.drop 5 ++ t := List.drop_append_of_le_length within
  obtain ⟨more, onwards⟩ : ∃ more, opened (content ++ t) = opened content ++ more := by
    rw [opened, opened, rest, Text.afterPrefix_append (by decide) member]
    exact Text.exists_before_append '{' _ t
  have form : behind (content ++ t) = behind content := by
    funext after
    rw [behind, behind, rest]
    cases tail : content.drop 5 with
    | nil =>
      rw [tail] at member
      cases member
    | cons c s => rfl
  refine (assigns_iff (begins.append t)).mpr ⟨inner, after ++ more, ?_, ?_, named, visible⟩
  · rw [onwards, Text.cutAt_append_of_some closed]
  · rw [form, behind_append cut]
    obtain ⟨parts, cut⟩ := cut
    exact ⟨_, Text.cutAtText_append cut more⟩

end Assignment

theorem Keyword.Begins.append {k : Keyword} (begins : k.Begins content) (t : Text) : k.Begins (content ++ t) := by
  obtain ⟨word, spelling, begins⟩ := begins
  exact ⟨word, spelling, begins.append t⟩

end

/-! ### The code of a line -/

/-- The option key that the code of a line holds: what stands before its first colon,
    trimmed, unless that is blank. -/
def Symbol.keyOf? (content : Text) : Option Text :=
  ((Text.cutAt ':' (Comment.code content)).map (Text.trim ·.1)).filter (! ·.isEmpty)

/-- What is behind the content of a line that has a comment behind it: blanks and the comment. -/
structure Trails (content tail : Text) : Prop where
  filled : content ≠ []
  unmarked : '#' ∉ content
  even : content.count '"' % 2 = 0
  comment : ∃ gap rest, tail = gap ++ '#' :: rest ∧ gap ≠ [] ∧ Text.allBlank gap = true

namespace Trails

variable {content tail : Text} (trails : Trails content tail)
include trails

/-- The comment does not belong to the code. -/
theorem code_append : ∃ gap, Text.allBlank gap = true ∧ Comment.code (content ++ tail) = content ++ gap := by
  obtain ⟨gap, rest, rfl, -, blank⟩ := trails.comment
  have visible : ∀ c, Text.isBlank c = false → c ∉ gap := fun c shown member => by
    rw [List.all_eq_true.mp blank c member] at shown
    cases shown
  have quotes : gap.count '"' = 0 := List.count_eq_zero.mpr (visible _ (by decide))
  have unmarked : '#' ∉ content ++ gap := by
    simp [trails.unmarked, visible '#' (by decide)]
  have outside : Comment.isOpen false (content ++ gap) = false := by
    rw [Comment.isOpen_false_eq_false_iff, List.count_append, quotes, Nat.add_zero, trails.even]
  have splits : Comment.Splits false (content ++ gap ++ '#' :: rest) (content ++ gap) (some ('#' :: rest)) :=
    .atMark (Comment.allQuoted_of_unmarked unmarked) outside
  refine ⟨gap, blank, ?_⟩
  rw [Comment.code, ← List.append_assoc, splits.splitFrom_eq]

/-- The key is the same with the comment. -/
theorem keyOf?_append : Symbol.keyOf? (content ++ tail) = Symbol.keyOf? content := by
  obtain ⟨gap, blank, code⟩ := trails.code_append
  have apart : ':' ∉ gap := fun member => by
    have shown := List.all_eq_true.mp blank ':' member
    revert shown
    decide
  rw [Symbol.keyOf?, Symbol.keyOf?, code, Comment.code_of_unmarked trails.unmarked]
  cases cut : Text.cutAt ':' content with
  | some parts => rw [Text.cutAt_append_of_some cut, Option.map_some, Option.map_some]
  | none =>
    rw [Text.cutAt_eq_none_iff] at cut
    rw [Text.cutAt_eq_none_iff.mpr fun member => (List.mem_append.mp member).elim cut apart]

/-- A beginning of a word without blanks does not reach into the blanks before the comment. -/
theorem length_le_of_append {word : Text} {i : Nat} (begins : Text.BeginsWith word (content ++ tail))
    (within : i ≤ word.length) (solid : ((word.take i).map Char.toLower).any Text.isBlank = false) :
    i ≤ content.length := by
  obtain ⟨gap, rest, rfl, some, blank⟩ := trails.comment
  by_contra short
  obtain ⟨c, gap, rfl⟩ := List.exists_cons_of_ne_nil some
  have reached : c ∈ (content ++ (c :: gap ++ '#' :: rest)).take i := by
    refine List.mem_of_getElem? (i := content.length) ?_
    rw [List.getElem?_take_of_lt (Nat.not_le.mp short)]
    simp
  have letter := List.mem_map_of_mem (f := Char.toLower) reached
  rw [begins.map_toLower_take within] at letter
  have shown := List.any_eq_false.mp solid _ letter
  rw [Text.isBlank_toLower] at shown
  exact shown (List.all_eq_true.mp blank c List.mem_cons_self)

/-- A word without blanks that opens a line with its comment opens the line. -/
theorem beginsWith_of_append {word : Text} (solid : (word.map Char.toLower).any Text.isBlank = false)
    (begins : Text.BeginsWith word (content ++ tail)) : Text.BeginsWith word content := by
  rw [← List.take_length (l := word)] at solid
  exact begins.of_append (trails.length_le_of_append begins (Nat.le_refl _) solid)

/-- The name of a command is the same with the comment, unless it ends the line and the
    blank behind it is no space. -/
theorem secondWord_append_iff (begins : Text.BeginsWith "command ".toList content) :
    Text.without ['/', ':'] (Keyword.secondWord (content ++ tail)) =
        Text.without ['/', ':'] (Keyword.secondWord content) ↔
      ' ' ∈ content.drop 8 ∨ (content ++ tail)[content.length]? = some ' ' := by
  obtain ⟨gap, rest, rfl, filled, blank⟩ := trails.comment
  obtain ⟨c, gap, rfl⟩ := List.exists_cons_of_ne_nil filled
  have within : 8 ≤ content.length := begins.length_le
  have next : (content ++ (c :: gap ++ '#' :: rest))[content.length]? = some c := by simp
  rw [Keyword.secondWord_of_begins (begins.append _), Keyword.secondWord_of_begins begins,
    List.drop_append_of_le_length within, next, Option.some.injEq]
  by_cases spaced : ' ' ∈ content.drop 8
  · refine iff_of_true ?_ (Or.inl spaced)
    obtain ⟨l, r, whole, -⟩ := List.eq_append_cons_of_mem spaced
    rw [whole, List.append_assoc, List.cons_append, Text.before_append_cons, Text.before_append_cons]
  · rw [or_iff_right spaced, Text.before_append spaced, Text.before_eq_self spaced, Text.without, Text.without,
      List.filter_append, List.append_right_eq_self, Text.before, List.cons_append]
    by_cases space : c = ' '
    · rw [List.takeWhile_cons_of_neg (by simp [space])]
      exact iff_of_true rfl space
    · have apart : ∀ mark, Text.isBlank mark = false → c ≠ mark := by
        rintro mark visible rfl
        rw [List.all_eq_true.mp blank c List.mem_cons_self] at visible
        cases visible
      have kept : c ∉ ['/', ':'] := by simp [apart '/' (by decide), apart ':' (by decide)]
      rw [List.takeWhile_cons_of_pos (by simpa using space)]
      refine iff_of_false (fun none => ?_) space
      exact List.filter_eq_nil_iff.mp none c List.mem_cons_self (by simpa using kept)

/-- A comment completes no keyword of an assignment: the brace follows a single space. -/
theorem begins_set_of_append (begins : Keyword.Begins .set (content ++ tail)) : Keyword.Begins .set content := by
  have begins := begins.beginsWith rfl
  have letters : 3 ≤ content.length := trails.length_le_of_append begins (by decide) (by decide)
  have brace : (content ++ tail)[4]? = some '{' := begins.getElem?_of_mark rfl (by decide) (by decide)
  refine ⟨_, List.mem_singleton_self _, begins.of_append (Nat.not_lt.mp fun short => ?_)⟩
  -- The brace would stand among the blanks or be the mark of the comment.
  obtain ⟨gap, rest, rfl, some, blank⟩ := trails.comment
  have filled := List.length_pos_iff.mpr some
  have short : content.length < 5 := short
  rw [List.getElem?_append_right (by omega)] at brace
  rcases Nat.lt_or_ge (4 - content.length) gap.length with inside | beyond
  · rw [List.getElem?_append_left inside] at brace
    have shown := List.all_eq_true.mp blank '{' (List.mem_of_getElem? brace)
    revert shown
    decide
  · have last : 4 - content.length - gap.length = 0 := by omega
    rw [List.getElem?_append_right beyond, last] at brace
    revert brace
    simp

end Trails
end ScriptAtlas
