import ScriptAtlas.Proofs.Script.Preorder
import ScriptAtlas.Proofs.Symbol.Declarations

/-!
The outline of a script as a projection of its tree. Every line that gives
structure has one item, the items come in the order of the walk through the tree,
and each stands directly under the item of the nearest line above it that gives
structure (`Outline.Projects`, `projects_ofTree_parse`). As long as the entries of
options blocks do not count as such, no blank line is shown, so the items stand in
the order of their lines (`items_in_source_order`).
-/
namespace ScriptAtlas

/-- The kinds of lines that give structure wherever they stand. -/
def Kind.structural : List Kind :=
  [.event, .function, .command, .class, .options, .option, .trigger, .ifStatement, .elseStatement, .loop,
   .setVar]

namespace Tree

variable {t : Tree} {n : Node}

/-- A line gives structure by its kind, or directly under an options block by any
    kind but that of a comment or of a line that is left undefined. -/
theorem isShown_iff : t.isShown n = true ↔
    n.kind ∈ Kind.structural ∨ n.kind ≠ .undefined ∧ n.kind ≠ .comment ∧ t.isInOptions n = true := by
  rw [isShown, isInOptions_iff]
  cases n.kind <;> simp [Outline.isStructural, Kind.structural]

/-- Some entries, taken from among those at given positions. -/
theorem map_filter_entriesAt {α : Type} (P : Nat × Node → Bool) (f : Nat × Node → α) (ids : List Nat) :
    ((t.entriesAt ids).filter P).map f =
      ids.filterMap fun id => (t.get? id).bind fun n => if P (id, n) then some (f (id, n)) else none := by
  induction ids with
  | nil => rfl
  | cons id rest ih =>
    rw [entriesAt, List.filterMap_cons, List.filterMap_cons, ← ih]
    cases t.get? id with
    | none => rfl
    | some n =>
      rw [Option.map_some, Option.bind_some, List.filter_cons]
      cases P (id, n) <;> rfl

end Tree

namespace Outline

/-- The items of a forest stand for the lines of a tree that give structure. -/
structure Projects (t : Tree) (items : List Item) : Prop where
  /-- Every line that gives structure has one item, with its label, kind and number, and there are no others. -/
  one_to_one : ((preorderAll items).map Item.bare).Perm ((t.nodes.filter t.isShown).map bareItem)
  /-- Items come in the order in which the walk passes their lines. -/
  in_order : (preorderAll items).map Item.bare = ((t.preorder.map (·.2.2)).filter t.isShown).map bareItem
  /-- An item stands directly under the item of the nearest line above its own that
      gives structure, and under none if there is no such line. -/
  nested : placedAll none items =
    ((t.preorder.map (·.2)).filter fun e => t.isShown e.2).map fun e => (itemAbove? t e.1, bareItem e.2)

variable {t : Tree}

theorem placedAll_ofTree_eq (linked : t.Linked) :
    placedAll none (ofTree t) =
      ((t.preorder.map (·.2)).filter fun e => t.isShown e.2).map fun e => (itemAbove? t e.1, bareItem e.2) := by
  rw [placedAll_ofTree linked, linked.map_preorder, Tree.map_filter_entriesAt]
  rfl

theorem map_bare_preorderAll_ofTree_eq (linked : t.Linked) :
    (preorderAll (ofTree t)).map Item.bare =
      ((t.preorder.map (·.2)).filter fun e => t.isShown e.2).map fun e => bareItem e.2 := by
  rw [← map_snd_placedAll none, placedAll_ofTree_eq linked, List.map_map]
  rfl

/-- The outline of a linked tree is its projection. -/
theorem projects_ofTree (linked : t.Linked) : Projects t (ofTree t) where
  one_to_one := by
    have once := (linked.perm_preorder.filter fun e => t.isShown e.2).map fun e => bareItem e.2
    have nodes : (t.entries.filter fun e => t.isShown e.2).map (fun e => bareItem e.2) =
        (t.nodes.filter t.isShown).map bareItem := by
      rw [← Tree.map_snd_entries t, List.filter_map, List.map_map]
      rfl
    rw [map_bare_preorderAll_ofTree_eq linked, ← nodes]
    exact once
  in_order := by
    have nodes : (t.preorder.map (·.2.2)).filter t.isShown =
        ((t.preorder.map (·.2)).filter fun e => t.isShown e.2).map (·.2) := by
      rw [List.filter_map, List.filter_map, List.map_map]
      rfl
    rw [map_bare_preorderAll_ofTree_eq linked, nodes, List.map_map]
    rfl
  nested := placedAll_ofTree_eq linked

end Outline

section
variable {options : ParseOptions} {text : Text}

/-- Where entries do not count as such, a line that is shown has content. -/
theorem isBlank_of_isShown (plain : options.classifyOptions = false) {n : Node}
    (member : n ∈ (parse options text).nodes) (shown : (parse options text).isShown n = true) :
    n.isBlank = false := by
  cases blank : n.isBlank with
  | false => rfl
  | true =>
    obtain ⟨counted, -⟩ := (isShown_iff_of_isBlank member blank).mp shown
    rw [plain] at counted
    cases counted

/-- Where entries do not count as such, the items come in the order of the lines. -/
theorem items_in_source_order (plain : options.classifyOptions = false) :
    (Outline.preorderAll (Outline.ofTree (parse options text))).map Outline.Item.bare =
      ((parse options text).nodes.filter (parse options text).isShown).map Outline.bareItem := by
  have linked := linked_parse options text
  -- Only blank lines can be out of order on the walk, and they are not shown.
  have content : ∀ es : List (Nat × Node), (∀ e ∈ es, e.2 ∈ (parse options text).nodes) →
      es.filter (fun e => (parse options text).isShown e.2) =
        (es.filter (!·.2.isBlank)).filter fun e => (parse options text).isShown e.2 := by
    intro es inside
    rw [List.filter_filter]
    refine List.filter_congr fun e member => ?_
    cases shown : (parse options text).isShown e.2 with
    | false => rfl
    | true => rw [isBlank_of_isShown plain (inside e member) shown]; rfl
  have listed : ∀ e ∈ (parse options text).entries, e.2 ∈ (parse options text).nodes := fun e member =>
    List.mem_of_getElem? (Tree.mem_entries.mp member)
  have walked : ∀ e ∈ (parse options text).preorder.map (·.2), e.2 ∈ (parse options text).nodes := fun e member =>
    listed e (linked.perm_preorder.mem_iff.mp member)
  calc (Outline.preorderAll (Outline.ofTree (parse options text))).map Outline.Item.bare
    _ = (((parse options text).preorder.map (·.2)).filter fun e => (parse options text).isShown e.2).map
          fun e => Outline.bareItem e.2 := Outline.map_bare_preorderAll_ofTree_eq linked
    _ = ((parse options text).entries.filter fun e => (parse options text).isShown e.2).map
          fun e => Outline.bareItem e.2 := by rw [content _ walked, content_preorder, ← content _ listed]
    _ = (((parse options text).entries.map (·.2)).filter (parse options text).isShown).map Outline.bareItem := by
          rw [List.filter_map, List.map_map]; rfl
    _ = _ := by rw [Tree.map_snd_entries]

theorem item_lines_increasing (plain : options.classifyOptions = false) :
    (Outline.preorderAll (Outline.ofTree (parse options text))).Pairwise fun i j => i.line < j.line := by
  have lines : (Outline.preorderAll (Outline.ofTree (parse options text))).map Outline.Item.line =
      ((parse options text).nodes.filter (parse options text).isShown).map (·.number) :=
    calc (Outline.preorderAll (Outline.ofTree (parse options text))).map Outline.Item.line
      _ = ((Outline.preorderAll (Outline.ofTree (parse options text))).map Outline.Item.bare).map Outline.Item.line := by
            rw [List.map_map]; rfl
      _ = (((parse options text).nodes.filter (parse options text).isShown).map Outline.bareItem).map
            Outline.Item.line := by rw [items_in_source_order plain]
      _ = _ := by rw [List.map_map]; rfl
  have increasing := (numbers_increasing options text).filter (parse options text).isShown
  have ordered := List.pairwise_map.mpr increasing
  rw [← lines] at ordered
  exact List.pairwise_map.mp ordered

end

/-- The outline of a script is the projection of its tree to the lines that give
    structure: one item for each of them, in the order of the walk, directly under
    the item of the nearest such line above. As long as the entries of options
    blocks do not count as such, the numbers of the lines increase from item to item. -/
theorem projects_ofTree_parse (options : ParseOptions) (text : Text) :
    (∀ n, (parse options text).isShown n = true ↔ n.kind ∈ Kind.structural ∨
      n.kind ≠ .undefined ∧ n.kind ≠ .comment ∧ (parse options text).isInOptions n = true) ∧
    Outline.Projects (parse options text) (Outline.ofTree (parse options text)) ∧
    (options.classifyOptions = false →
      (Outline.preorderAll (Outline.ofTree (parse options text))).Pairwise fun i j => i.line < j.line) :=
  ⟨fun _ => Tree.isShown_iff, Outline.projects_ofTree (linked_parse options text), item_lines_increasing⟩

/-- A comment hands the loop below it to the event above it, an entry is shown
    under its options block, and the lines come in order. -/
theorem projects_ofTree_parse_handed_on :
    ∃ text,
      (Outline.placedAll none (Outline.ofTree (parse {} text))).map (fun e => (e.1.map (·.line), e.2.line)) =
        [(none, 1), (some 1, 3), (some 3, 5), (some 1, 6), (none, 7), (some 7, 8)] ∧
      ((Outline.preorderAll (Outline.ofTree (parse {} text))).map (·.line)).Pairwise (· < ·) := by
  let text := "on join:\n  # all\n    loop 3 times:\n\n        if it is day:\n  set {x} to 1\noptions:\n  a: b\n".toList
  obtain ⟨-, projects, ordered⟩ := projects_ofTree_parse {} text
  refine ⟨text, ?_, List.pairwise_map.mpr (ordered rfl)⟩
  rw [projects.nested]
  decide +kernel

end ScriptAtlas
