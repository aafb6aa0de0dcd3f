import ScriptAtlas.Proofs.Line.TrailingComment
import ScriptAtlas.Proofs.Symbol.OptionEntries

/-!
The symbols of a line with a comment behind it. Whether the line is an entry and whether
it stands under an options block decide what it gives (`Gives`). The keyword, the
parentheses, the second word and the assignment are looked for in the comment as well,
so a comment can make a declaration of a line or change the name of one; otherwise the
line gives the same with its comment (`Overheard`, `gives_append_iff`). A line that gives
the same under an options block and elsewhere is told by its key and by what it declares
(`ReadsAlike`, `readsAlike_iff`).
-/
namespace ScriptAtlas

namespace Symbol

/-- The kind, the name and the line of a symbol. -/
def brief (s : Symbol) : SymbolKind × Text × Nat := (s.kind, s.name, s.line)

/-- What a line declares by the keyword it opens with, in brief. -/
def Tells (content : Text) (number : Nat) (told : SymbolKind × Text × Nat) : Prop :=
  ∃ s, Declares content number s ∧ s.brief = told

/-- A line declares otherwise with a comment than without. The parentheses of a function
    or the rest of an assignment are found in the comment, a bare keyword gets its space
    from the blanks before it, the name of a command goes on behind a blank that is no
    space, and that of an event always goes on into the comment. -/
inductive Overheard (content commented : Text) : Prop
  | function (begins : Keyword.Begins .function commented) (opened : '(' ∈ commented) (closed : ')' ∈ commented)
      (new : ¬ (Keyword.Begins .function content ∧ '(' ∈ content ∧ ')' ∈ content))
  | command (begins : Keyword.Begins .command commented)
      (new : ¬ Keyword.Begins .command content ∨ ' ' ∉ content.drop 8 ∧ commented[content.length]? ≠ some ' ')
  | event (begins : Keyword.Begins .event commented)
  | «variable» (begins : Keyword.Begins .set content) (unassigned : Assignment.ofLine? content = none)
      {a : Assignment} (assigned : Assignment.ofLine? commented = some a) (visible : a.visibility = .global)
      (named : a.name ≠ [])

section
variable {content tail : Text}

/-- The name of an event holds all marks of its line but the colons. -/
theorem mem_name_of_event {s : Text} : '#' ∈ Text.erase "on ".toList (Text.without [':'] s) ↔ '#' ∈ s := by
  rw [Text.mem_erase_iff (by decide) (by decide), Text.without, List.mem_filter, and_iff_left (by decide)]

variable (trails : Trails content tail)
include trails

/-- What is overheard is something new. -/
theorem Overheard.exists_new (overheard : Overheard content (content ++ tail)) (number : Nat) :
    ∃ told, Tells (content ++ tail) number told ∧ ¬ Tells content number told := by
  cases overheard with
  | function begins opened closed new =>
    obtain ⟨signature, signed⟩ := Option.isSome_iff_exists.mp (Signature.isSome_ofLine?_iff.mpr ⟨opened, closed⟩)
    refine ⟨_, ⟨_, .function begins signed, rfl⟩, ?_⟩
    rintro ⟨s, declares, same⟩
    cases declares with
    | function begins signed => exact new ⟨begins, Signature.isSome_ofLine?_iff.mp (Option.isSome_of_mem signed)⟩
    | command | event | «variable» => cases same
  | command begins new =>
    refine ⟨_, ⟨_, .command begins, rfl⟩, ?_⟩
    rintro ⟨s, declares, same⟩
    cases declares with
    | command begins =>
      have name := (trails.secondWord_append_iff (begins.beginsWith rfl)).mp (Prod.mk.inj (Prod.mk.inj same).2).1.symm
      rcases new with other | ⟨single, apart⟩
      · exact other begins
      · exact name.elim single apart
    | function | event | «variable» => cases same
  | event begins =>
    refine ⟨_, ⟨_, .event begins, rfl⟩, ?_⟩
    rintro ⟨s, declares, same⟩
    cases declares with
    | event =>
      obtain ⟨gap, rest, rfl, -, -⟩ := trails.comment
      have name : Text.erase "on ".toList (Text.without [':'] content) =
          Text.erase "on ".toList (Text.without [':'] (content ++ (gap ++ '#' :: rest))) :=
        (Prod.mk.inj (Prod.mk.inj same).2).1
      refine trails.unmarked (mem_name_of_event.mp ?_)
      rw [name, mem_name_of_event]
      simp
    | function | command | «variable» => cases same
  | «variable» begins unassigned assigned visible named =>
    refine ⟨_, ⟨_, .variable (begins.append tail) assigned visible named, rfl⟩, ?_⟩
    rintro ⟨s, declares, same⟩
    cases declares with
    | «variable» _ assigned =>
      rw [unassigned] at assigned
      cases assigned
    | function | command | event => cases same

variable (unheard : ¬ Overheard content (content ++ tail))
include unheard

/-- A command of which nothing is overheard was one before, of the same name. -/
theorem command_of_unheard (begins : Keyword.Begins .command (content ++ tail)) :
    Keyword.Begins .command content ∧
      Text.without ['/', ':'] (Keyword.secondWord (content ++ tail)) =
        Text.without ['/', ':'] (Keyword.secondWord content) := by
  obtain ⟨opened, single⟩ := not_or.mp fun new => unheard (.command begins new)
  have opened := not_not.mp opened
  refine ⟨opened, (trails.secondWord_append_iff (opened.beginsWith rfl)).mpr ?_⟩
  by_contra neither
  exact single (not_or.mp neither)

/-- What a line declares it declares with a comment of which nothing is overheard. -/
theorem Tells.append {number : Nat} {told : SymbolKind × Text × Nat} (tells : Tells content number told) :
    Tells (content ++ tail) number told := by
  obtain ⟨s, declares, rfl⟩ := tells
  cases declares with
  | function begins signed =>
    obtain ⟨longer, signed, name⟩ := Signature.ofLine?_append signed tail
    exact ⟨_, .function (begins.append tail) signed, congrArg (SymbolKind.function, ·, number) name⟩
  | command begins =>
    obtain ⟨-, name⟩ := command_of_unheard trails unheard (begins.append tail)
    exact ⟨_, .command (begins.append tail), congrArg (SymbolKind.command, ·, number) name⟩
  | event begins => exact absurd (.event (begins.append tail)) unheard
  | «variable» begins assigned visible named =>
    obtain ⟨longer, assigned, name, visibility⟩ := Assignment.ofLine?_append begins assigned tail
    refine ⟨_, .variable (begins.append tail) assigned (visibility ▸ visible) (name ▸ named), ?_⟩
    exact congrArg (SymbolKind.variable, ·, number) name

/-- What a line declares with a comment of which nothing is overheard it declares without. -/
theorem Tells.of_append {number : Nat} {told : SymbolKind × Text × Nat} (tells : Tells (content ++ tail) number told) :
    Tells content number told := by
  obtain ⟨s, declares, rfl⟩ := tells
  cases declares with
  | function begins signed =>
    obtain ⟨opened, closed⟩ := Signature.isSome_ofLine?_iff.mp (Option.isSome_of_mem signed)
    obtain ⟨begins, marks⟩ := not_not.mp fun new => unheard (.function begins opened closed new)
    obtain ⟨shorter, signed'⟩ := Option.isSome_iff_exists.mp (Signature.isSome_ofLine?_iff.mpr marks)
    obtain ⟨longer, again, name⟩ := Signature.ofLine?_append signed' tail
    obtain rfl := Option.some.inj (again.symm.trans signed)
    exact ⟨_, .function begins signed', congrArg (SymbolKind.function, ·, number) name.symm⟩
  | command begins =>
    obtain ⟨begins, name⟩ := command_of_unheard trails unheard begins
    exact ⟨_, .command begins, congrArg (SymbolKind.command, ·, number) name.symm⟩
  | event begins => exact absurd (.event begins) unheard
  | «variable» begins assigned visible named =>
    have begins := trails.begins_set_of_append begins
    cases assigned' : Assignment.ofLine? content with
    | none => exact absurd (.variable begins assigned' assigned visible named) unheard
    | some a =>
      obtain ⟨longer, again, name, visibility⟩ := Assignment.ofLine?_append begins assigned' tail
      obtain rfl := Option.some.inj (again.symm.trans assigned)
      refine ⟨_, .variable begins assigned' (visibility ▸ visible) (name ▸ named), ?_⟩
      exact congrArg (SymbolKind.variable, ·, number) name.symm

omit unheard

/-- A line declares the same with its comment exactly if nothing of that is overheard. -/
theorem tells_append_iff (number : Nat) :
    (∀ told, Tells content number told ↔ Tells (content ++ tail) number told) ↔ ¬ Overheard content (content ++ tail) := by
  constructor
  · intro alike overheard
    obtain ⟨told, tells, new⟩ := overheard.exists_new trails number
    exact new ((alike told).mpr tells)
  · exact fun unheard told => ⟨Tells.append trails unheard, Tells.of_append trails unheard⟩

end

/-! ### What a line gives -/

/-- What a line gives below a line of the kind `parent`, in brief: what it declares by
    its keyword unless it counts as an entry, and failing that its key if it stands
    directly under an options block. -/
def Gives (options : ParseOptions) (parent : Option Kind) (content : Text) (number : Nat)
    (told : SymbolKind × Text × Nat) : Prop :=
  ¬ Construct.CountsAsEntry options parent ∧ Tells content number told ∨
    parent = some .options ∧ (Construct.CountsAsEntry options parent ∨ ∀ s, ¬ Declares content number s) ∧
      ∃ key, keyOf? content = some key ∧ told = (.option, key, number)

section
variable {options : ParseOptions} {text : Text} {n : Node} {s : Symbol}

theorem keyOf?_eq_some_iff {content key : Text} :
    keyOf? content = some key ↔
      ∃ start rest, Text.cutAt ':' (Comment.code content) = some (start, rest) ∧ Text.trim start ≠ [] ∧
        key = Text.trim start := by
  rw [keyOf?, Option.filter_eq_some_iff, Option.map_eq_some_iff]
  constructor
  · rintro ⟨⟨⟨start, rest⟩, cut, rfl⟩, visible⟩
    exact ⟨start, rest, cut, by simpa using visible, rfl⟩
  · rintro ⟨start, rest, cut, visible, rfl⟩
    exact ⟨⟨_, cut, rfl⟩, by simpa using visible⟩

/-- The key that an entry is reported by. -/
theorem optionOf?_iff_keyOf? (member : n ∈ (parse options text).nodes) :
    optionOf? n = some s ↔ ∃ key, keyOf? n.content = some key ∧ s = .option key n.number := by
  rw [optionOf?_eq_some_iff]
  constructor
  · rintro ⟨-, -, start, rest, cut, visible, rfl⟩
    exact ⟨_, keyOf?_eq_some_iff.mpr ⟨start, rest, cut, visible, rfl⟩, rfl⟩
  · rintro ⟨key, holds, rfl⟩
    obtain ⟨start, rest, cut, visible, rfl⟩ := keyOf?_eq_some_iff.mp holds
    -- A line with a key has code, so it is neither blank nor a comment.
    have code : Comment.code n.content ≠ [] := fun none => by
      rw [none] at cut
      cases cut
    have filled : n.content ≠ [] := fun none => code (by rw [none]; rfl)
    have unmarked : n.content.head? ≠ some '#' := fun marked => by
      obtain ⟨rest, whole⟩ := List.head?_eq_some_iff.mp marked
      refine code ?_
      rw [whole, Comment.code, Comment.splitFrom, if_pos ⟨rfl, rfl⟩]
    refine ⟨?_, kind_ne_comment_of_mem_parse member unmarked, start, rest, cut, visible, rfl⟩
    rw [Node.isBlank, List.isEmpty_eq_false_iff]
    exact filled

theorem map_brief_ofNode?_iff (member : n ∈ (parse options text).nodes) (told : SymbolKind × Text × Nat) :
    (ofNode? ((parse options text).isInOptions n) n).map brief = some told ↔
      Gives options ((parse options text).parentKind n) n.content n.number told := by
  have declares := fun s => declaredBy?_iff_declares (s := s) (construct_of_mem_parse member)
  have silent : declaredBy? n = none ↔
      Construct.CountsAsEntry options ((parse options text).parentKind n) ∨ ∀ s, ¬ Declares n.content n.number s := by
    rw [← Option.not_isSome_iff_eq_none, Option.isSome_iff_exists]
    simp only [declares]
    by_cases counts : Construct.CountsAsEntry options ((parse options text).parentKind n) <;> simp [counts]
  rw [Option.map_eq_some_iff, Gives]
  simp only [ofNode?_eq_some_iff, declares, silent, Tree.isInOptions_iff, optionOf?_iff_keyOf? member, Tells]
  constructor
  · rintro ⟨s, ⟨free, own⟩ | ⟨quiet, nested, key, holds, rfl⟩, rfl⟩
    · exact Or.inl ⟨free, s, own, rfl⟩
    · exact Or.inr ⟨nested, quiet, key, holds, rfl⟩
  · rintro (⟨free, s, own, rfl⟩ | ⟨nested, quiet, key, holds, rfl⟩)
    · exact ⟨s, Or.inl ⟨free, own⟩, rfl⟩
    · exact ⟨_, Or.inr ⟨quiet, nested, key, holds, rfl⟩, rfl⟩

end

/-! ### Lines that give the same -/

/-- A line gives the same directly under an options block and anywhere else: where the
    lines there do not count as entries it declares something if it has a key, and
    where they do it has no key and declares nothing. -/
structure ReadsAlike (options : ParseOptions) (content : Text) (number : Nat) : Prop where
  uncounted : options.classifyOptions = false → (keyOf? content).isSome → ∃ s, Declares content number s
  counted : options.classifyOptions = true → keyOf? content = none ∧ ∀ s, ¬ Declares content number s

section
variable {options : ParseOptions} {parent : Option Kind} {content tail : Text} {number : Nat}

theorem gives_congr {parent' : Option Kind} (nested : parent = some .options ↔ parent' = some .options)
    (told : SymbolKind × Text × Nat) : Gives options parent content number told ↔ Gives options parent' content number told := by
  rw [Gives, Gives, Construct.CountsAsEntry, Construct.CountsAsEntry, nested]

theorem kind_of_tells {told : SymbolKind × Text × Nat} (tells : Tells content number told) : told.1 ≠ .option := by
  obtain ⟨s, declares, rfl⟩ := tells
  cases declares <;> exact fun same => by cases same

theorem tells_iff_gives (free : ¬ Construct.CountsAsEntry options parent) (told : SymbolKind × Text × Nat) :
    Tells content number told ↔ Gives options parent content number told ∧ told.1 ≠ .option := by
  constructor
  · exact fun tells => ⟨Or.inl ⟨free, tells⟩, kind_of_tells tells⟩
  · rintro ⟨⟨-, tells⟩ | ⟨-, -, key, -, rfl⟩, other⟩
    · exact tells
    · exact absurd rfl other

theorem forall_not_tells_iff : (∀ told, ¬ Tells content number told) ↔ ∀ s, ¬ Declares content number s :=
  ⟨fun none s declares => none _ ⟨s, declares, rfl⟩, fun none _ ⟨s, declares, _⟩ => none s declares⟩

/-- A line gives the same with its comment exactly if it counts as an entry or nothing of
    the comment is overheard. -/
theorem gives_append_iff (trails : Trails content tail) (number : Nat) :
    (∀ told, Gives options parent content number told ↔ Gives options parent (content ++ tail) number told) ↔
      (¬ Construct.CountsAsEntry options parent → ¬ Overheard content (content ++ tail)) := by
  rw [← tells_append_iff trails number]
  constructor
  · intro alike free told
    rw [tells_iff_gives free, tells_iff_gives free, alike]
  · intro alike told
    rw [Gives, Gives, trails.keyOf?_append]
    by_cases counts : Construct.CountsAsEntry options parent
    · simp [counts]
    · rw [alike counts told, ← forall_not_tells_iff, ← forall_not_tells_iff]
      simp only [alike counts]

theorem gives_outside_iff (outside : parent ≠ some .options) (told : SymbolKind × Text × Nat) :
    Gives options parent content number told ↔ Tells content number told := by
  simp [Gives, Construct.CountsAsEntry, outside]

/-- A line gives the same under an options block and elsewhere exactly if it reads alike. -/
theorem readsAlike_iff (outside : parent ≠ some .options) :
    (∀ told, Gives options (some .options) content number told ↔ Gives options parent content number told) ↔
      ReadsAlike options content number := by
  simp only [gives_outside_iff outside]
  constructor
  · intro alike
    refine ⟨fun off keyed => ?_, fun on => ?_⟩
    · obtain ⟨key, holds⟩ := Option.isSome_iff_exists.mp keyed
      by_contra silent
      have given : Gives options (some .options) content number (.option, key, number) :=
        Or.inr ⟨rfl, Or.inr fun s declares => silent ⟨s, declares⟩, key, holds, rfl⟩
      exact kind_of_tells ((alike _).mp given) rfl
    · have counts : Construct.CountsAsEntry options (some .options) := ⟨rfl, on⟩
      constructor
      · refine Option.eq_none_iff_forall_ne_some.mpr fun key holds => ?_
        exact kind_of_tells ((alike _).mp (Or.inr ⟨rfl, Or.inl counts, key, holds, rfl⟩)) rfl
      · intro s declares
        rcases (alike s.brief).mpr ⟨s, declares, rfl⟩ with ⟨free, -⟩ | ⟨-, -, key, -, same⟩
        · exact free counts
        · exact kind_of_tells ⟨s, declares, rfl⟩ (congrArg Prod.fst same)
  · intro reads told
    cases on : options.classifyOptions with
    | true =>
      obtain ⟨keyless, silent⟩ := reads.counted on
      refine iff_of_false ?_ (forall_not_tells_iff.mpr silent told)
      rintro (⟨-, tells⟩ | ⟨-, -, key, holds, -⟩)
      · exact forall_not_tells_iff.mpr silent told tells
      · rw [keyless] at holds
        cases holds
    | false =>
      have free : ¬ Construct.CountsAsEntry options (some .options) := by
        rintro ⟨-, counted⟩
        rw [on] at counted
        cases counted
      constructor
      · rintro (⟨-, tells⟩ | ⟨-, quiet, key, holds, -⟩)
        · exact tells
        · obtain ⟨s, declares⟩ := reads.uncounted on (Option.isSome_of_mem holds)
          exact absurd declares (quiet.resolve_left free s)
      · exact fun tells => Or.inl ⟨free, tells⟩

end

/-- A line that reads alike gives the same wherever it stands. -/
theorem ReadsAlike.gives_iff {options : ParseOptions} {content : Text} {number : Nat}
    (reads : ReadsAlike options content number) (parent parent' : Option Kind) (told : SymbolKind × Text × Nat) :
    Gives options parent content number told ↔ Gives options parent' content number told := by
  have anywhere : ∀ parent, Gives options (some .options) content number told ↔ Gives options parent content number told := by
    intro parent
    by_cases nested : parent = some .options
    · rw [nested]
    · exact (readsAlike_iff nested).mpr reads told
  rw [← anywhere parent, ← anywhere parent']

section
variable {content : Text} (begins : Text.BeginsWith optionsHead content)
include begins

/-- The head of an options block is code. -/
theorem beginsWith_code_of_options : Text.BeginsWith optionsHead (Comment.code content) := by
  have marks : ∀ mark, mark.toLower = mark → mark ∉ (optionsHead.take 8).map Char.toLower → mark ∉ content.take 8 :=
    fun mark settled absent => begins.not_mem_take (by decide) settled absent
  have parts : content.take 8 ++ content.drop 8 = content := List.take_append_drop 8 content
  have quoted : Comment.AllQuoted false (content.take 8) :=
    Comment.allQuoted_of_unmarked (marks '#' (by decide) (by decide))
  have split := Comment.splitFrom_append quoted (content.drop 8)
  have long : optionsHead.length ≤ (content.take 8).length := by
    rw [List.length_take]
    exact Nat.le_min.mpr ⟨by decide, begins.length_le⟩
  rw [parts] at split
  rw [← parts] at begins
  rw [Comment.code, split]
  exact (begins.of_append long).append _

theorem exists_key_of_options : ∃ key, keyOf? content = some key := by
  have opens := beginsWith_code_of_options begins
  have cut := opens.cutAt_of_mark (i := 7) (d := ':') rfl (by decide) (by decide) (by decide)
  have letters := congrArg (List.all · Text.isBlank) (opens.map_toLower_take (i := 7) (by decide))
  simp only [List.all_map, Function.comp_def, Text.isBlank_toLower] at letters
  refine ⟨_, keyOf?_eq_some_iff.mpr ⟨_, _, cut, ?_, rfl⟩⟩
  rw [ne_eq, Text.trim_eq_nil_iff, Text.allBlank, letters]
  decide

/-- A line that might head an options block reads otherwise under another one. -/
theorem not_readsAlike_of_options {options : ParseOptions} {number : Nat} : ¬ ReadsAlike options content number := by
  obtain ⟨key, holds⟩ := exists_key_of_options begins
  have silent : ∀ s, ¬ Declares content number s := by
    intro s declares
    cases declares with
    | function opens | command opens | event opens | «variable» opens => exact Construct.plain_of_options begins _ opens
  intro reads
  cases on : options.classifyOptions with
  | true =>
    rw [(reads.counted on).1] at holds
    cases holds
  | false =>
    obtain ⟨s, declares⟩ := reads.uncounted on (Option.isSome_of_mem holds)
    exact silent s declares

end

end Symbol
end ScriptAtlas
