import ScriptAtlas.Proofs.Outline.Nesting

/-!
Symbols and the outline of a script. A line that declares a symbol gives structure:
either its keyword does, or it is the entry of an options block and neither blank nor
a comment (`isShown_of_declared`). As a line that gives structure has one item and no
more (`items_of_line`), the index and the outline agree on what a script declares
(`symbols_outlined`).
-/
namespace ScriptAtlas

variable {options : ParseOptions} {text : Text} {n : Node} {s : Symbol}

/-- A line that declares by what it is gives structure wherever it stands. -/
theorem Symbol.kind_of_declaredBy? (declared : declaredBy? n = some s) : n.kind ∈ Kind.structural := by
  rw [Node.kind]
  rcases declaredBy?_eq_some_iff.mp declared with ⟨_, is, -⟩ | ⟨_, is, -⟩ | ⟨_, is, -⟩ | ⟨_, is, -⟩ <;>
    simp [is, Construct.kind, Kind.structural]

/-- A line with content is not left undefined. -/
theorem kind_ne_undefined_of_content (member : n ∈ (parse options text).nodes) (content : n.isBlank = false) :
    n.kind ≠ .undefined := by
  intro undefined
  rw [Node.kind, construct_of_mem_parse member, Construct.kind_ofContent_eq_undefined_iff] at undefined
  rw [Node.isBlank, undefined.1] at content
  cases content

/-- A line that declares a symbol gives structure. -/
theorem isShown_of_declared (member : n ∈ (parse options text).nodes)
    (declared : Symbol.ofNode? ((parse options text).isInOptions n) n = some s) :
    (parse options text).isShown n = true := by
  rw [Tree.isShown_iff]
  rcases Symbol.ofNode?_eq_some_iff.mp declared with own | ⟨-, nested, entry⟩
  · exact Or.inl (Symbol.kind_of_declaredBy? own)
  · obtain ⟨content, code, -⟩ := Symbol.optionOf?_eq_some_iff.mp entry
    exact Or.inr ⟨kind_ne_undefined_of_content member content, code, nested⟩

/-- A line that gives structure has one item, at whatever level. -/
theorem items_of_line (member : n ∈ (parse options text).nodes) (shown : (parse options text).isShown n = true) :
    ∃ item, (Outline.preorderAll (Outline.ofTree (parse options text))).filter (·.line = n.number) = [item] ∧
      item.bare = Outline.bareItem n := by
  have listed := (Outline.projects_ofTree (linked_parse options text)).one_to_one.filter (·.line = n.number)
  have own : (((parse options text).nodes.filter (parse options text).isShown).map Outline.bareItem).filter
      (·.line = n.number) = [Outline.bareItem n] := by
    calc _ = (((parse options text).nodes.filter (·.number = n.number)).filter (parse options text).isShown).map
              Outline.bareItem := by
            rw [List.filter_map, List.filter_filter, List.filter_filter]
            refine congrArg _ (List.filter_congr fun m _ => ?_)
            exact Bool.and_comm ..
      _ = [Outline.bareItem n] := by simp [filter_number member, shown]
  rw [own, List.perm_singleton, List.filter_map] at listed
  obtain ⟨item, only, bare⟩ := List.map_eq_singleton_iff.mp listed
  exact ⟨item, only, bare⟩

/-- The symbols of a script stand in the order of their lines, one a line at most, and
    the line of every symbol has exactly one item in the outline, which shows the line
    that declares the symbol. -/
theorem symbols_outlined (options : ParseOptions) (text : Text) :
    ((parse options text).symbols.Pairwise fun r s => r.line < s.line) ∧
    ∀ s ∈ (parse options text).symbols, ∃ item,
      (Outline.preorderAll (Outline.ofTree (parse options text))).filter (·.line = s.line) = [item] ∧
      ∃ n ∈ (parse options text).nodes,
        Symbol.ofNode? ((parse options text).isInOptions n) n = some s ∧ item.bare = Outline.bareItem n := by
  refine ⟨symbols_increasing options text, fun s declared => ?_⟩
  obtain ⟨n, member, made⟩ := mem_symbols.mp declared
  obtain ⟨item, only, bare⟩ := items_of_line member (isShown_of_declared member made)
  rw [Symbol.line_of_ofNode? made]
  exact ⟨item, only, n, member, made, bare⟩

/-- Where entries count as such, a blank line and a comment among them are shown as well;
    the key still has an item of its own. -/
theorem symbols_outlined_among_entries :
    let t := parse { classifyOptions := true } "options:\n    a: b\n\n    # c: d\n        e: f\n".toList
    ∃ s ∈ t.symbols, s.kind = .option ∧ s.line = 2 ∧
      ∃ item, (Outline.preorderAll (Outline.ofTree t)).filter (·.line = 2) = [item] := by
  intro t
  have found : ∃ s ∈ t.symbols, s.kind = .option ∧ s.line = 2 := by decide +kernel
  obtain ⟨s, declared, kind, line⟩ := found
  obtain ⟨item, only, -⟩ := (symbols_outlined { classifyOptions := true } _).2 s declared
  rw [line] at only
  exact ⟨s, declared, kind, line, item, only⟩

end ScriptAtlas
