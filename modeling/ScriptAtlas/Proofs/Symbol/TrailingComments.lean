import ScriptAtlas.Proofs.Script.CommentedLine
import ScriptAtlas.Proofs.Symbol.Overheard

/-!
Scripts with a comment behind one of their lines, and their symbols. Two scripts of one
size have the same symbols in brief exactly if their lines give the same, one by one
(`map_brief_symbols_eq_iff`). A comment matters for its own line, where something of it can be
overheard, and for the lines directly under it, where it makes a head of an options block
of the line or takes that from it (`Unsettles`); it matters for no other line
(`symbols_commented_iff`).
-/
namespace ScriptAtlas

theorem map_brief_symbols_of_line {options : ParseOptions} {text : Text} {n : Node}
    (member : n ∈ (parse options text).nodes) :
    ((parse options text).symbols.map Symbol.brief).filter (·.2.2 = n.number) =
      ((Symbol.ofNode? ((parse options text).isInOptions n) n).map Symbol.brief).toList := by
  rw [List.filter_map]
  show ((parse options text).symbols.filter (·.line = n.number)).map Symbol.brief = _
  rw [symbols_of_line member]
  cases Symbol.ofNode? ((parse options text).isInOptions n) n <;> rfl

/-- Two scripts of the same size have the same symbols in brief exactly if their lines
    give the same. -/
theorem map_brief_symbols_eq_iff {options : ParseOptions} {text text' : Text}
    (size : (parse options text).size = (parse options text').size) :
    (parse options text').symbols.map Symbol.brief = (parse options text).symbols.map Symbol.brief ↔
      ∀ i n m, (parse options text).get? i = some n → (parse options text').get? i = some m → ∀ told,
        Symbol.Gives options ((parse options text).parentKind n) n.content n.number told ↔
          Symbol.Gives options ((parse options text').parentKind m) m.content m.number told := by
  constructor
  · intro same i n m found found' told
    have member := List.mem_of_getElem? found
    have member' := List.mem_of_getElem? found'
    have line := map_brief_symbols_of_line member
    rw [← same, number_of_get? found, ← number_of_get? found', map_brief_symbols_of_line member'] at line
    have given := congrArg List.head? line
    rw [Option.head?_toList, Option.head?_toList] at given
    rw [← Symbol.map_brief_ofNode?_iff member, ← Symbol.map_brief_ofNode?_iff member', given]
  · intro lines
    have made : ∀ text, (parse options text).symbols.map Symbol.brief =
        ((parse options text).nodes.map fun n =>
          (Symbol.ofNode? ((parse options text).isInOptions n) n).map Symbol.brief).filterMap id := by
      intro text
      rw [Tree.symbols, List.map_filterMap, List.filterMap_map]
      rfl
    rw [made, made]
    refine congrArg _ (List.ext_getElem? fun i => ?_)
    rw [List.getElem?_map, List.getElem?_map]
    cases found : (parse options text).nodes[i]? with
    | none =>
      have beyond := List.getElem?_eq_none_iff.mp found
      rw [List.getElem?_eq_none (Nat.le_trans (Nat.le_of_eq size.symm) beyond)]
      rfl
    | some n =>
      have within := (List.getElem?_eq_some_iff.mp found).1
      have found' := List.getElem?_eq_getElem (l := (parse options text').nodes) (Nat.lt_of_lt_of_le within (Nat.le_of_eq size))
      rw [found', Option.map_some, Option.map_some, Option.some.injEq]
      refine Option.ext fun told => ?_
      rw [Symbol.map_brief_ofNode?_iff (List.mem_of_getElem? found),
        Symbol.map_brief_ofNode?_iff (List.mem_of_getElem? found')]
      exact (lines i n _ found found' told).symm

/-! ### A comment behind one line -/

/-- A line that begins like the head of an options block has the shape of a call only
    with its comment, or only without. -/
def Unsettles (content commented : Text) : Prop :=
  Text.BeginsWith optionsHead content ∧ Call.hasShape content ≠ Call.hasShape commented

namespace SameBut

variable {options : ParseOptions} {text text' : Text} {pos : Nat} {n m : Node}
  (same : SameBut options text text' pos) (found : (parse options text).get? pos = some n)
  (found' : (parse options text').get? pos = some m)
include same found found'

/-- The line that differs stands under an options block in both scripts or in none. -/
theorem nested_iff_here :
    (parse options text).parentKind n = some .options ↔ (parse options text').parentKind m = some .options := by
  refine same.nested_iff found found' fun p up q q' at_p at_p' => ?_
  have earlier := (linked_parse options text).earlier pos n p found up
  refine same.heads_iff at_p at_p' (Nat.ne_of_lt earlier) fun j k before at_j child => ?_
  have later := (linked_parse options text).earlier j k pos at_j child
  omega

variable {tail : Text} (behind : m.content = n.content ++ tail) (trails : Trails n.content tail)
include behind trails

/-- A comment makes a head of a line, or takes that from it, exactly if it unsettles the line. -/
theorem kind_eq_options_iff_of_trails :
    (n.kind = .options ↔ m.kind = .options) ↔
      ((parse options text).parentKind n ≠ some .options → ¬ Unsettles n.content m.content) := by
  have begins : Text.BeginsWith optionsHead m.content ↔ Text.BeginsWith optionsHead n.content := by
    rw [behind]
    exact ⟨trails.beginsWith_of_append (by decide), fun begins => begins.append tail⟩
  rw [kind_eq_options_iff (List.mem_of_getElem? found), kind_eq_options_iff (List.mem_of_getElem? found'), begins,
    ne_eq, ne_eq, ← same.nested_iff_here found found', Unsettles]
  cases Call.hasShape n.content <;> cases Call.hasShape m.content <;> simp <;> tauto

theorem gives_iff_here :
    (∀ told, Symbol.Gives options ((parse options text).parentKind n) n.content n.number told ↔
        Symbol.Gives options ((parse options text').parentKind m) m.content m.number told) ↔
      (¬ Construct.CountsAsEntry options ((parse options text).parentKind n) →
        ¬ Symbol.Overheard n.content m.content) := by
  rw [behind, ← Symbol.gives_append_iff trails n.number, number_of_get? found, number_of_get? found']
  refine forall_congr' fun told => iff_congr Iff.rfl ?_
  exact Symbol.gives_congr (same.nested_iff_here found found').symm told

omit behind trails

/-- If the line is a head in one of the scripts only, a line directly under it gives the
    same in both only if it reads alike. -/
theorem readsAlike_of_child (flips : ¬ (n.kind = .options ↔ m.kind = .options)) {j : Nat} {k k' : Node}
    (at_j : (parse options text).get? j = some k) (at_j' : (parse options text').get? j = some k')
    (child : k.parent = some pos)
    (alike : ∀ told, Symbol.Gives options ((parse options text).parentKind k) k.content k.number told ↔
      Symbol.Gives options ((parse options text').parentKind k') k'.content k'.number told) :
    Symbol.ReadsAlike options k.content k.number := by
  have later := (linked_parse options text).earlier j k pos at_j child
  have child' : k'.parent = some pos := by rw [← same.parent_eq at_j at_j', child]
  rw [Tree.parentKind_of_parent child found, Tree.parentKind_of_parent child' found',
    ← same.content_eq at_j at_j' (Nat.ne_of_gt later), number_of_get? at_j', ← number_of_get? at_j] at alike
  by_cases head : n.kind = .options
  · have other : some m.kind ≠ some .options := fun head' => flips (iff_of_true head (Option.some.inj head'))
    rw [head] at alike
    exact (Symbol.readsAlike_iff other).mp alike
  · have head' : m.kind = .options := by
      by_contra other
      exact flips (iff_of_false head other)
    have other : some n.kind ≠ some .options := fun same => head (Option.some.inj same)
    rw [head'] at alike
    exact (Symbol.readsAlike_iff other).mp fun told => (alike told).symm

/-- Every other line gives the same in both scripts if the line is a head in both or in
    none, or if the lines directly under it read alike. -/
theorem gives_elsewhere {i : Nat} {a b : Node} (at_i : (parse options text).get? i = some a)
    (at_i' : (parse options text').get? i = some b) (place : i ≠ pos)
    (children : ¬ (n.kind = .options ↔ m.kind = .options) → ∀ k ∈ (parse options text).nodes,
      k.parent = some pos → Symbol.ReadsAlike options k.content k.number) (told : SymbolKind × Text × Nat) :
    Symbol.Gives options ((parse options text).parentKind a) a.content a.number told ↔
      Symbol.Gives options ((parse options text').parentKind b) b.content b.number told := by
  rw [← same.content_eq at_i at_i' place, number_of_get? at_i', ← number_of_get? at_i]
  by_cases steady : n.kind = .options ↔ m.kind = .options
  · have heads : ∀ q q', (parse options text).get? pos = some q → (parse options text').get? pos = some q' →
        (q.kind = .options ↔ q'.kind = .options) := by
      intro q q' at_q at_q'
      rwa [← Option.some.inj (found.symm.trans at_q), ← Option.some.inj (found'.symm.trans at_q')]
    refine Symbol.gives_congr (same.nested_iff at_i at_i' fun p up q q' at_p at_p' => ?_) told
    by_cases parent : p = pos
    · subst parent
      exact heads q q' at_p at_p'
    · exact same.heads_iff at_p at_p' parent fun _ _ _ _ _ _ => heads
  · have reads := children steady
    by_cases child : a.parent = some pos
    · exact (reads a (List.mem_of_getElem? at_i) child).gives_iff _ _ told
    · refine Symbol.gives_congr (same.nested_iff at_i at_i' fun p up q q' at_p at_p' => ?_) told
      have parent : p ≠ pos := fun same => child (same ▸ up)
      exact same.heads_iff at_p at_p' parent fun j k _ at_j below begins =>
        absurd (reads k (List.mem_of_getElem? at_j) below) (Symbol.not_readsAlike_of_options begins)

include behind trails

/-- The comment leaves the symbols as they are exactly if nothing in it is overheard and,
    if it unsettles the line, all lines directly under the line read alike. -/
theorem map_brief_symbols_iff :
    (parse options text').symbols.map Symbol.brief = (parse options text).symbols.map Symbol.brief ↔
      (¬ Construct.CountsAsEntry options ((parse options text).parentKind n) →
        ¬ Symbol.Overheard n.content m.content) ∧
      ((parse options text).parentKind n ≠ some .options → Unsettles n.content m.content →
        ∀ k ∈ (parse options text).nodes, k.parent = some pos → Symbol.ReadsAlike options k.content k.number) := by
  have heads := same.kind_eq_options_iff_of_trails found found' behind trails
  rw [map_brief_symbols_eq_iff same.size_eq, ← same.gives_iff_here found found' behind trails]
  constructor
  · intro lines
    refine ⟨lines pos n m found found', fun outside unsettles k member child => ?_⟩
    have flips : ¬ (n.kind = .options ↔ m.kind = .options) := fun steady => heads.mp steady outside unsettles
    obtain ⟨j, at_j⟩ := List.getElem?_of_mem member
    obtain ⟨k', at_j'⟩ := same.exists_twin at_j
    exact same.readsAlike_of_child found found' flips at_j at_j' child (lines j k k' at_j at_j')
  · rintro ⟨here, children⟩ i a b at_i at_i'
    by_cases place : i = pos
    · subst place
      obtain rfl := Option.some.inj (at_i.symm.trans found)
      obtain rfl := Option.some.inj (at_i'.symm.trans found')
      exact here
    · refine same.gives_elsewhere found found' at_i at_i' place fun flips => ?_
      obtain ⟨outside, settled⟩ := Classical.not_imp.mp fun steady => flips (heads.mpr steady)
      exact children outside (not_not.mp settled)

end SameBut

/-- A comment behind a line that is not blank, has no `#` and closes its quotations leaves
    the kinds, names and lines of all symbols as they are exactly under two conditions:
    the line counts as the entry of an options block or nothing of the comment is
    overheard, and if the comment makes a head of an options block of the line or takes
    that from it, all lines directly under the line read alike. -/
theorem symbols_commented_iff (options : ParseOptions) {before line comment after : Text}
    (starts : ∀ c ∈ before.getLast?, c = '\n') (whole : '\n' ∉ line) (ends : ∀ c ∈ Text.before '\n' after, c = '\r')
    (shown : Text.allBlank (readable ((sourceLines before).length + 1) line) = false) (unmarked : '#' ∉ line)
    (even : line.count '"' % 2 = 0) (short : '\n' ∉ comment) :
    let t := parse options (before ++ line ++ after)
    let t' := parse options (before ++ commented line comment ++ after)
    ∃ n m, t.get? (sourceLines before).length = some n ∧ t'.get? (sourceLines before).length = some m ∧
      (t'.symbols.map Symbol.brief = t.symbols.map Symbol.brief ↔
        (¬ Construct.CountsAsEntry options (t.parentKind n) → ¬ Symbol.Overheard n.content m.content) ∧
        (t.parentKind n ≠ some .options → Unsettles n.content m.content →
          ∀ k ∈ t.nodes, k.parent = some (sourceLines before).length →
            Symbol.ReadsAlike options k.content k.number)) := by
  intro t t'
  obtain ⟨n, m, tail, found, found', behind, trails⟩ :=
    exists_commented starts whole ends shown short options unmarked even
  have same := sameBut_commented starts whole ends shown short options
  exact ⟨n, m, found, found', same.map_brief_symbols_iff found found' behind trails⟩

/-- The entry of an options block. -/
def motto : Text := "\tmotto: \"hi\"".toList

/-- The key of an entry is told from its code, whatever the comment holds. -/
theorem symbols_commented_iff_motto :
    (parse {} ("options:\n".toList ++ commented motto "(b): c".toList ++ "\r\non join:\n".toList)).symbols.map
        Symbol.brief =
      (parse {} ("options:\n".toList ++ motto ++ "\r\non join:\n".toList)).symbols.map Symbol.brief := by
  have starts : ∀ c ∈ "options:\n".toList.getLast?, c = '\n' := fun c last => (Option.some.inj last).symm
  have ends : ∀ c ∈ Text.before '\n' "\r\non join:\n".toList, c = '\r' := fun c member => List.mem_singleton.mp member
  have shown : Text.allBlank (readable ((sourceLines "options:\n".toList).length + 1) motto) = false := by decide
  obtain ⟨n, m, found, found', same⟩ := symbols_commented_iff {} starts (show '\n' ∉ motto by decide) ends shown
    (show '#' ∉ motto by decide) (show motto.count '"' % 2 = 0 by decide) (show '\n' ∉ "(b): c".toList by decide)
  have here : ∃ n, (parse {} ("options:\n".toList ++ motto ++ "\r\non join:\n".toList)).get? 1 = some n ∧
      n.content = "motto: \"hi\"".toList ∧
      (parse {} ("options:\n".toList ++ motto ++ "\r\non join:\n".toList)).isInOptions n = true :=
    ⟨_, rfl, rfl, by decide +kernel⟩
  have there : ∃ m, (parse {} ("options:\n".toList ++ commented motto "(b): c".toList ++ "\r\non join:\n".toList)).get? 1 =
      some m ∧ m.content = "motto: \"hi\" # (b): c".toList := ⟨_, rfl, rfl⟩
  obtain ⟨n', at_1, content, nested⟩ := here
  obtain ⟨m', at_1', content'⟩ := there
  obtain rfl := Option.some.inj (found.symm.trans at_1)
  obtain rfl := Option.some.inj (found'.symm.trans at_1')
  have plain : ∀ k : Keyword, ¬ k.Begins m.content := by
    rw [content']
    intro k
    cases k <;> decide
  refine same.mpr ⟨fun _ overheard => ?_, fun outside => absurd (Tree.isInOptions_iff.mp nested) outside⟩
  cases overheard with
  | function begins | command begins | event begins => exact plain _ begins
  | «variable» begins =>
    rw [content] at begins
    revert begins
    decide

/-- The name of an event goes on into the comment. -/
theorem event_overhears_comment :
    Text.allBlank "on join:".toList = false ∧ '#' ∉ "on join:".toList ∧ "on join:".toList.count '"' % 2 = 0 ∧
    (parse {} "on join:\n".toList).symbols.map Symbol.brief = [(.event, "join".toList, 1)] ∧
    (parse {} (commented "on join:".toList "greet".toList ++ "\n".toList)).symbols.map Symbol.brief =
      [(.event, "join # greet".toList, 1)] := by
  decide +kernel

end ScriptAtlas
