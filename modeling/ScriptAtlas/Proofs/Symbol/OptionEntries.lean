import ScriptAtlas.Proofs.Symbol.Declarations

/-!
The symbols of the entries of an options block. An entry with a key is reported
once. Where entries count as such it is reported by its key; where they do not, it
is read like any other line, so an entry that opens with a keyword that declares is
reported as what it declares and its key is not (`entry_reported_iff`).
-/
namespace ScriptAtlas

/-- A line that is read as a comment begins with its mark. -/
theorem Keyword.head?_of_begins_comment {content : Text} (begins : Keyword.Begins .comment content) :
    content.head? = some '#' := by
  rw [List.head?_eq_getElem?]
  exact (begins.beginsWith rfl).getElem?_of_mark rfl (by decide) (by decide)

section
variable {options : ParseOptions} {text : Text} {n : Node} {s : Symbol}

/-- What an entry of an options block declares by its keyword. -/
theorem declaredBy?_of_mem_parse (member : n ∈ (parse options text).nodes)
    (nested : (parse options text).isInOptions n = true) :
    Symbol.declaredBy? n = some s ↔
      options.classifyOptions = false ∧ Symbol.Declares n.content n.number s := by
  rw [Symbol.declaredBy?_iff_declares (construct_of_mem_parse member), Construct.CountsAsEntry,
    Tree.isInOptions_iff.mp nested, and_iff_right rfl, Bool.not_eq_true]

/-- A line that does not begin like a comment is not one. -/
theorem kind_ne_comment_of_mem_parse (member : n ∈ (parse options text).nodes)
    (unmarked : n.content.head? ≠ some '#') : n.kind ≠ .comment := by
  intro comment
  rw [Node.kind, construct_of_mem_parse member] at comment
  obtain ⟨-, begins⟩ := Construct.kind_ofContent_iff (k := .comment) |>.mp comment
  exact unmarked (Keyword.head?_of_begins_comment begins)

end

/-- An entry of an options block with a key is reported once. It is reported by its
    key, trimmed, exactly if entries count as such or the entry opens with no
    keyword that declares; otherwise it is reported as what it declares. -/
theorem entry_reported_iff (options : ParseOptions) (text : Text) :
    ∀ n ∈ (parse options text).nodes, (parse options text).isInOptions n = true →
      n.isBlank = false → n.content.head? ≠ some '#' →
      ∀ key rest, Comment.code n.content = key ++ ':' :: rest → ':' ∉ key → Text.trim key ≠ [] →
        ∃ s, (parse options text).symbols.filter (·.line = n.number) = [s] ∧
          (s = .option (Text.trim key) n.number ↔
            options.classifyOptions = true ∨ ∀ d, ¬ Symbol.Declares n.content n.number d) ∧
          (options.classifyOptions = false → ∀ d, Symbol.Declares n.content n.number d → s = d) := by
  intro n member nested some unmarked key rest code apart visible
  rw [symbols_of_line member, nested, Symbol.ofNode?, if_pos rfl]
  have entry : Symbol.optionOf? n = .some (.option (Text.trim key) n.number) :=
    Symbol.optionOf?_eq_some_iff.mpr ⟨some, kind_ne_comment_of_mem_parse member unmarked, key, rest,
      Text.cutAt_eq_some_iff.mpr ⟨apart, code⟩, visible, rfl⟩
  have declares : ∀ d, Symbol.declaredBy? n = .some d ↔
      options.classifyOptions = false ∧ Symbol.Declares n.content n.number d :=
    fun d => declaredBy?_of_mem_parse member nested
  cases own : Symbol.declaredBy? n with
  | some d =>
    obtain ⟨off, declared⟩ := (declares d).mp own
    refine ⟨d, rfl, ⟨?_, ?_⟩, fun _ other declared' => ?_⟩
    · rintro rfl
      cases declared
    · rintro (on | none)
      · rw [off] at on
        cases on
      · exact absurd declared (none d)
    · exact Option.some.inj (own.symm.trans ((declares other).mpr ⟨off, declared'⟩))
  | none =>
    rw [entry]
    have silent : options.classifyOptions = false → ∀ d, ¬ Symbol.Declares n.content n.number d := fun off d declared => by
      have impossible := (declares d).mpr ⟨off, declared⟩
      rw [own] at impossible
      cases impossible
    refine ⟨_, rfl, ⟨fun _ => ?_, fun _ => rfl⟩, fun off d declared => absurd declared (silent off d)⟩
    cases on : options.classifyOptions with
    | true => exact Or.inl rfl
    | false => exact Or.inr (silent on)

/-- An options block in which the keyword of one entry ends at a colon and that of
    the other does not. -/
def greetings : Text := "options:\n    command: /hi # say: hi\n    on join: hi\n".toList

/-- A keyword that ends at a colon is a key like any other. -/
theorem entry_reported_iff_command_key :
    ∃ n ∈ (parse {} greetings).nodes,
      (parse {} greetings).symbols.filter (·.line = n.number) = [.option "command".toList 2] := by
  have found : ∃ n, (parse {} greetings).nodes[1]? = some n ∧ n.isBlank = false ∧ n.number = 2 ∧
      n.content = "command: /hi # say: hi".toList ∧ (parse {} greetings).isInOptions n = true :=
    ⟨_, rfl, rfl, rfl, rfl, by decide +kernel⟩
  obtain ⟨n, found, some, number, content, nested⟩ := found
  have member := List.mem_of_getElem? found
  obtain ⟨s, reported, key, -⟩ := entry_reported_iff {} greetings n member nested some (by rw [content]; decide)
    "command".toList " /hi ".toList (by rw [content]; decide) (by decide) (by decide)
  have plain : ∀ k : Keyword, ¬ k.Begins n.content := by
    rw [content]
    intro k
    cases k <;> decide
  have undeclared : ∀ d, ¬ Symbol.Declares n.content n.number d := by
    intro d declared
    cases declared with
    | function begins | command begins | event begins | «variable» begins => exact plain _ begins
  have trimmed : Text.trim "command".toList = "command".toList := by decide
  refine ⟨n, member, ?_⟩
  rw [reported, key.mpr (Or.inr undeclared), trimmed, number]

/-- An entry that opens like an event is reported as an event, and its key is lost. -/
theorem exists_key_not_reported :
    ∃ n ∈ (parse {} greetings).nodes, (parse {} greetings).isInOptions n = true ∧ n.isBlank = false ∧
      n.content.head? ≠ some '#' ∧ Comment.code n.content = "on join".toList ++ ':' :: " hi".toList ∧
      Text.trim "on join".toList = "on join".toList ∧
      (parse {} greetings).symbols.filter (·.line = n.number) = [.event "join hi".toList n.number] := by
  have found : ∃ n, (parse {} greetings).nodes[2]? = some n ∧ (parse {} greetings).isInOptions n = true ∧
      n.isBlank = false ∧ n.content = "on join: hi".toList ∧
      (parse {} greetings).symbols.filter (·.line = n.number) = [.event "join hi".toList n.number] :=
    ⟨_, rfl, by decide +kernel, rfl, rfl, by decide +kernel⟩
  obtain ⟨n, found, nested, some, content, reported⟩ := found
  refine ⟨n, List.mem_of_getElem? found, nested, some, ?_, ?_, by decide, reported⟩
  · rw [content]
    decide
  · rw [content]
    decide

end ScriptAtlas
