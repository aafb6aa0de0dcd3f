import ScriptAtlas.Proofs.Line.Classification
import ScriptAtlas.Proofs.Outline.BlankLines

/-!
The lines that declare the symbols of a script. A line declares one symbol at
most, which has the number of the line, so the symbols stand in the order of
their lines (`symbols_increasing`) and the symbols of one line are what the line
itself declares (`symbols_of_line`). Apart from the entries of options blocks a
line declares by the keyword it opens with (`declaredBy?_iff_declares`).
-/
namespace ScriptAtlas

namespace Symbol

variable {n : Node} {s : Symbol}

/-- What a line declares by what it is, case by case. -/
theorem declaredBy?_eq_some_iff :
    declaredBy? n = some s ↔
      (∃ signature, n.construct = .function (some signature) ∧ s = .function signature n.number) ∨
      (∃ name, n.construct = .command name ∧ s = .command name n.number) ∨
      (∃ name, n.construct = .event name ∧ s = .event name n.number) ∨
      ∃ a, n.construct = .setVar (some a) ∧ a.visibility = .global ∧ a.name ≠ [] ∧
        s = .variable a.name a.fromOption n.number := by
  rw [declaredBy?]
  split
  · simp_all [eq_comm]
  · simp_all [eq_comm]
  · simp_all [eq_comm]
  · split
    · simp_all [eq_comm]
    · simp_all
  · simp_all

theorem line_of_declaredBy? (declared : declaredBy? n = some s) : s.line = n.number := by
  rcases declaredBy?_eq_some_iff.mp declared with ⟨_, -, rfl⟩ | ⟨_, -, rfl⟩ | ⟨_, -, rfl⟩ | ⟨_, -, -, -, rfl⟩ <;> rfl

/-- The option key that a line declares, with the code before its first colon. -/
theorem optionOf?_eq_some_iff :
    optionOf? n = some s ↔ n.isBlank = false ∧ n.kind ≠ .comment ∧
      ∃ key rest, Text.cutAt ':' (Comment.code n.content) = some (key, rest) ∧ Text.trim key ≠ [] ∧
        s = .option (Text.trim key) n.number := by
  rw [optionOf?]
  by_cases plain : n.isBlank = false ∧ n.kind ≠ .comment
  · have open' : ¬ (n.isBlank || decide (n.kind = .comment)) = true := by simp [plain]
    rw [if_neg open', and_iff_right plain.1, and_iff_right plain.2]
    cases Text.cutAt ':' (Comment.code n.content) with
    | none => simp
    | some parts =>
      obtain ⟨key, rest⟩ := parts
      show (if (Text.trim key).isEmpty then none else some (option (Text.trim key) n.number)) = some s ↔ _
      by_cases blank : Text.trim key = []
      · rw [if_pos (List.isEmpty_iff.mpr blank)]
        simp [blank]
      · rw [if_neg (List.isEmpty_iff.not.mpr blank), Option.some.injEq, eq_comm]
        simp [blank]
  · have closed : (n.isBlank || decide (n.kind = .comment)) = true := by
      cases blank : n.isBlank with
      | true => rfl
      | false => simpa [blank] using plain
    rw [if_pos closed]
    constructor
    · intro impossible
      cases impossible
    · rintro ⟨content, code, -⟩
      exact absurd ⟨content, code⟩ plain

theorem ofNode?_eq_some_iff {inOptions : Bool} :
    ofNode? inOptions n = some s ↔
      declaredBy? n = some s ∨ declaredBy? n = none ∧ inOptions = true ∧ optionOf? n = some s := by
  rw [ofNode?, Option.or_eq_some_iff]
  cases inOptions <;> simp

theorem line_of_ofNode? {inOptions : Bool} (declared : ofNode? inOptions n = some s) : s.line = n.number := by
  rcases ofNode?_eq_some_iff.mp declared with own | ⟨-, -, entry⟩
  · exact line_of_declaredBy? own
  · obtain ⟨-, -, key, rest, -, -, rfl⟩ := optionOf?_eq_some_iff.mp entry
    rfl

/-! ### Keywords that declare -/

/-- The symbol that a line declares by the keyword it opens with. An assignment
    declares a global variable that has a name. -/
inductive Declares (content : Text) (number : Nat) : Symbol → Prop
  | function (begins : Keyword.Begins .function content) {signature : Signature}
      (signed : Signature.ofLine? content = some signature) :
      Declares content number (.function signature number)
  | command (begins : Keyword.Begins .command content) :
      Declares content number (.command (Text.without ['/', ':'] (Keyword.secondWord content)) number)
  | event (begins : Keyword.Begins .event content) :
      Declares content number (.event (Text.erase "on ".toList (Text.without [':'] content)) number)
  | «variable» (begins : Keyword.Begins .set content) {a : Assignment}
      (assigned : Assignment.ofLine? content = some a) (visible : a.visibility = .global) (named : a.name ≠ []) :
      Declares content number (.variable a.name a.fromOption number)

/-- A line that does not count as the entry of an options block declares what
    its keyword says. -/
theorem declaredBy?_iff_declares {options : ParseOptions} {parent : Option Kind}
    (made : n.construct = Construct.ofContent options parent n.content) :
    declaredBy? n = some s ↔ ¬ Construct.CountsAsEntry options parent ∧ Declares n.content n.number s := by
  have opened : ∀ k : Keyword, n.construct.kind = k.kind →
      ¬ Construct.CountsAsEntry options parent ∧ k.Begins n.content ∧ n.construct = k.construct n.content := by
    intro k same
    rw [made] at same ⊢
    obtain ⟨free, begins⟩ := Construct.kind_ofContent_iff.mp same
    exact ⟨free, begins, Construct.ofContent_of_begins free begins⟩
  rw [declaredBy?_eq_some_iff]
  constructor
  · rintro (⟨signature, is, rfl⟩ | ⟨name, is, rfl⟩ | ⟨name, is, rfl⟩ | ⟨a, is, visible, named, rfl⟩)
    · obtain ⟨free, begins, form⟩ := opened .function (by rw [is]; rfl)
      exact ⟨free, .function begins (Construct.function.inj (form.symm.trans is))⟩
    · obtain ⟨free, begins, form⟩ := opened .command (by rw [is]; rfl)
      obtain rfl := Construct.command.inj (form.symm.trans is)
      exact ⟨free, .command begins⟩
    · obtain ⟨free, begins, form⟩ := opened .event (by rw [is]; rfl)
      obtain rfl := Construct.event.inj (form.symm.trans is)
      exact ⟨free, .event begins⟩
    · obtain ⟨free, begins, form⟩ := opened .set (by rw [is]; rfl)
      exact ⟨free, .variable begins (Construct.setVar.inj (form.symm.trans is)) visible named⟩
  · rintro ⟨free, declares⟩
    have form : ∀ k : Keyword, k.Begins n.content → n.construct = k.construct n.content := fun k begins => by
      rw [made, Construct.ofContent_of_begins free begins]
    cases declares with
    | function begins signed => exact Or.inl ⟨_, (form _ begins).trans (congrArg _ signed), rfl⟩
    | command begins => exact Or.inr (Or.inl ⟨_, form _ begins, rfl⟩)
    | event begins => exact Or.inr (Or.inr (Or.inl ⟨_, form _ begins, rfl⟩))
    | «variable» begins assigned visible named =>
      exact Or.inr (Or.inr (Or.inr ⟨_, (form _ begins).trans (congrArg _ assigned), visible, named, rfl⟩))

end Symbol

section
variable {options : ParseOptions} {text : Text} {n : Node}

theorem numbers_increasing (options : ParseOptions) (text : Text) :
    (parse options text).nodes.Pairwise fun m n => m.number < n.number := by
  rw [List.pairwise_iff_getElem]
  intro i j before after less
  obtain ⟨-, -, -, number_i, -⟩ := parse_line (List.getElem?_eq_getElem before)
  obtain ⟨-, -, -, number_j, -⟩ := parse_line (List.getElem?_eq_getElem after)
  omega

theorem mem_symbols {t : Tree} {s : Symbol} :
    s ∈ t.symbols ↔ ∃ n ∈ t.nodes, Symbol.ofNode? (t.isInOptions n) n = some s := List.mem_filterMap

/-- The symbols of a script stand in the order of their lines, one a line at most. -/
theorem symbols_increasing (options : ParseOptions) (text : Text) :
    (parse options text).symbols.Pairwise fun r s => r.line < s.line := by
  refine List.pairwise_filterMap.mpr ((numbers_increasing options text).imp fun {m n} less r first s second => ?_)
  rw [Symbol.line_of_ofNode? first, Symbol.line_of_ofNode? second]
  exact less

/-- No two lines have the same number. -/
theorem filter_number (member : n ∈ (parse options text).nodes) :
    (parse options text).nodes.filter (·.number = n.number) = [n] := by
  obtain ⟨before, after, split⟩ := List.append_of_mem member
  have increasing := numbers_increasing options text
  rw [split, List.pairwise_append, List.pairwise_cons] at increasing
  obtain ⟨-, ⟨later, -⟩, earlier⟩ := increasing
  have first : before.filter (·.number = n.number) = [] := by
    refine List.filter_eq_nil_iff.mpr fun m listed same => ?_
    exact Nat.ne_of_lt (earlier m listed n List.mem_cons_self) (of_decide_eq_true same)
  have last : after.filter (·.number = n.number) = [] := by
    refine List.filter_eq_nil_iff.mpr fun m listed same => ?_
    exact Nat.ne_of_gt (later m listed) (of_decide_eq_true same)
  simp [split, first, last]

/-- The symbols of a line are what the line declares. -/
theorem symbols_of_line (member : n ∈ (parse options text).nodes) :
    (parse options text).symbols.filter (·.line = n.number) =
      (Symbol.ofNode? ((parse options text).isInOptions n) n).toList := by
  have numbered : ∀ m : Node, (Symbol.ofNode? ((parse options text).isInOptions m) m).filter (·.line = n.number) =
      if m.number = n.number then Symbol.ofNode? ((parse options text).isInOptions m) m else none := by
    intro m
    cases made : Symbol.ofNode? ((parse options text).isInOptions m) m with
    | none => simp
    | some s => simp [Option.filter, Symbol.line_of_ofNode? made]
  have lines : (parse options text).symbols.filter (·.line = n.number) =
      ((parse options text).nodes.filter (·.number = n.number)).filterMap
        fun m => Symbol.ofNode? ((parse options text).isInOptions m) m := by
    rw [Tree.symbols, List.filter_filterMap, List.filterMap_filter]
    refine List.filterMap_congr fun m _ => ?_
    rw [numbered]
    simp
  rw [lines, filter_number member, List.filterMap_cons]
  cases Symbol.ofNode? ((parse options text).isInOptions n) n <;> rfl

end
end ScriptAtlas
