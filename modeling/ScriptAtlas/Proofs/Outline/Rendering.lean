import ScriptAtlas.Proofs.Outline.Levels
import ScriptAtlas.Proofs.Outline.SignatureLabel
import ScriptAtlas.Proofs.Script.Lines
import ScriptAtlas.Proofs.Symbol.Names
import ScriptAtlas.Proofs.Text.PrintedLines

/-!
A printed outline shows everything. Its lines are found again by their line breaks, and
a line gives back its item: the level by the indentation, the kind by the word behind
it, the number of the line by the last word, and the label is all between, whatever it
looks like (`eq_of_shownLine`). Items and levels determine the outline, so outlines with
labels of one line each are printed differently unless they are the same
(`render_eq_iff`). The outline of a script is such an outline, since its labels are made
of the characters of single lines (`unbroken_ofTree_parse`).
-/
namespace ScriptAtlas

/-! ### What labels are made of -/

section
variable {c : Char} {content : Text}

theorem Text.erase_subset {pattern : Text} (full : pattern ≠ []) (s : Text) : Text.erase pattern s ⊆ s := by
  induction s using Text.erase_induction full with
  | nil => exact List.Subset.refl _
  | found s ih =>
    rw [Text.erase_append full]
    exact List.subset_append_of_subset_right pattern ih
  | other x s apart ih =>
    rw [Text.erase_cons apart]
    exact List.cons_subset_cons x ih

theorem Text.dropFinal_subset (c : Char) (s : Text) : Text.dropFinal c s ⊆ s := by
  unfold Text.dropFinal
  split
  · exact List.dropLast_subset s
  · exact List.Subset.refl s

theorem Keyword.secondWord_subset (content : Text) : secondWord content ⊆ content := by
  unfold secondWord
  cases second : (Text.pieces ' ' content)[1]? with
  | none => exact List.nil_subset _
  | some word => exact Text.subset_of_mem_pieces (List.mem_of_getElem? second)

theorem Comment.code_subset (content : Text) : Comment.code content ⊆ content := by
  unfold code
  generalize false = inQuotes
  induction content generalizing inQuotes with
  | nil => exact List.nil_subset _
  | cons c s ih =>
    rw [splitFrom]
    split
    · exact List.nil_subset _
    · exact List.cons_subset_cons c (ih _)

theorem Outline.plainLabel_subset (content : Text) : plainLabel content ⊆ content := by
  intro c member
  have member := Text.dropFinal_subset ':' _ ((Text.prefix_trimEnd _).subset member)
  exact Comment.code_subset content ((Text.prefix_trimEnd _).subset member)

namespace Signature
variable {s : Signature}

theorem nameOf_subset (head : Text) : nameOf head ⊆ head := by
  intro c inside
  unfold nameOf at inside
  cases spaced : Text.cutAt ' ' head with
  | none => rw [spaced] at inside; cases Text.mem_of_mem_trim inside
  | some parts =>
    obtain ⟨-, rfl⟩ := Text.cutAt_eq_some_iff.mp spaced
    rw [spaced] at inside
    exact List.mem_append_right _ (List.mem_cons_of_mem _ (Text.mem_of_mem_trim inside))

theorem mem_of_mem_returnOf (member : c ∈ returnOf content) : c ∈ noReturn ∨ c ∈ content := by
  unfold returnOf at member
  split at member
  · rename_i start rest cut
    rw [Text.eq_of_cutAtText cut]
    have inside := List.mem_of_mem_filter (Text.mem_of_mem_trim member)
    exact .inr (List.mem_append_right _ (List.mem_append_right _ inside))
  · exact .inl member

/-- The characters that a label puts between the parts of a signature, and those of the
    return type that a line need not write. -/
def labelMarks : Text := "(), :=void".toList

/-- A label has no characters but its marks and those of the line. -/
theorem mem_of_mem_label (signed : ofLine? content = some s) (member : c ∈ s.label) :
    c ∈ labelMarks ∨ c ∈ content := by
  by_contra neither
  obtain ⟨other, absent⟩ := not_or.mp neither
  have apart : ∀ d ∈ labelMarks, c ≠ d := fun d mark same => other (same ▸ mark)
  unfold ofLine? at signed
  split at signed
  · obtain ⟨⟨head, rest⟩, cut, rfl⟩ := Option.map_eq_some_iff.mp signed
    obtain ⟨-, whole⟩ := Text.cutAt_eq_some_iff.mp cut
    have behind : c ∉ rest := fun inside => absent (by simp [whole, inside])
    have before : c ∉ nameOf head := fun inside => absent (by simp [whole, nameOf_subset head inside])
    have returned : c ∉ returnOf content := fun inside => by
      rcases mem_of_mem_returnOf inside with unwritten | inside
      · exact other (List.mem_of_mem_drop (i := 6) unwritten)
      · exact absent inside
    have listed : c ∉ labelList ((Text.pieces ',' (Text.before ')' rest)).filterMap Parameter.ofText?) := by
      refine not_mem_labelList (fun p listed inside => ?_) (apart _ (by decide)) (apart _ (by decide))
      obtain ⟨part, piece, made⟩ := List.mem_filterMap.mp listed
      rcases Parameter.mem_of_mem_label made inside with mark | inside
      · exact other ((by decide : " :=".toList ⊆ labelMarks) mark)
      · exact behind (List.takeWhile_subset _ (Text.subset_of_mem_pieces piece inside))
    rw [label_eq] at member
    have clause : c ∉ " :: ".toList := fun mark => other ((by decide : " :: ".toList ⊆ labelMarks) mark)
    simp only [List.mem_append, List.mem_cons] at member
    rcases member with inside | mark | inside | mark | mark | inside
    · exact before inside
    · exact apart _ (by decide) mark
    · exact listed inside
    · exact apart _ (by decide) mark
    · exact clause mark
    · exact returned inside
  · cases signed

end Signature

theorem Assignment.name_subset {a : Assignment} (begins : Keyword.Begins .set content)
    (assigned : Assignment.ofLine? content = some a) : a.name ⊆ content := by
  obtain ⟨inner, after, cut, -, named, -⟩ := (assigns_iff (begins.beginsWith rfl)).mp ⟨a, assigned, rfl, rfl⟩
  have braces : inner ⊆ content := by
    obtain ⟨-, piece⟩ := Text.cutAt_eq_some_iff.mp cut
    obtain ⟨double, -, more, whole⟩ := exists_opened content
    intro d inside
    refine List.drop_subset 5 content ?_
    rw [whole, piece]
    simp [inside]
  have base : (target inner).1 ⊆ inner := by
    unfold target
    split
    · rename_i first rest cut
      rw [Text.eq_of_cutAtText cut]
      exact List.subset_append_left _ _
    · exact List.Subset.refl _
  have unmarked : ∀ s : Text, (variableOf s).1 ⊆ s := by
    intro s
    unfold variableOf
    split
    · exact List.subset_cons_self ..
    · exact List.subset_cons_self ..
    · exact List.Subset.refl _
  rw [← named]
  exact fun d inside => braces (base (unmarked _ inside))

namespace Outline
variable {options : ParseOptions} {parent : Option Kind} {x : Construct}

/-- Only a declared signature has a label that is not part of its line. -/
theorem mem_of_mem_labelOf (suits : Construct.Suits options parent content x) (member : c ∈ labelOf x content) :
    c ∈ Signature.labelMarks ∨ c ∈ content := by
  have named : ∀ name : Text, name ⊆ content →
      c ∈ (if (Text.trim name).isEmpty then plainLabel content else Text.trim name) → c ∈ content := by
    intro name inside member
    split at member
    · exact plainLabel_subset content member
    · exact inside (Text.mem_of_mem_trim member)
  cases suits with
  | entry | options | statement | undefined => exact .inr (plainLabel_subset content member)
  | call => exact .inr (named _ (List.takeWhile_subset _) member)
  | keyword k free begins =>
    cases k with
    | function =>
      cases signed : Signature.ofLine? content with
      | none =>
        simp only [Keyword.construct, signed] at member
        exact .inr (plainLabel_subset content member)
      | some s =>
        simp only [Keyword.construct, signed] at member
        exact Signature.mem_of_mem_label signed member
    | command =>
      refine .inr (named _ (fun d inside => ?_) member)
      exact Keyword.secondWord_subset content (List.mem_of_mem_filter inside)
    | event =>
      refine .inr (named _ (fun d inside => ?_) member)
      exact List.mem_of_mem_filter (Text.erase_subset (by decide) _ inside)
    | «class» =>
      refine .inr (named _ (fun d inside => ?_) member)
      exact Keyword.secondWord_subset content (Text.dropFinal_subset ':' _ inside)
    | set =>
      cases assigned : Assignment.ofLine? content with
      | none =>
        simp only [Keyword.construct, assigned] at member
        exact .inr (plainLabel_subset content member)
      | some a =>
        simp only [Keyword.construct, assigned] at member
        exact .inr (named _ (Assignment.name_subset begins assigned) member)
    | comment | «if» | «else» | loop | trigger | stop => exact .inr (plainLabel_subset content member)

end Outline
end

/-! ### Items from their lines -/

namespace Outline

/-- The labels of an outline are texts of one line each. -/
def Unbroken (items : List Item) : Prop := ∀ item ∈ preorderAll items, '\n' ∉ item.label

theorem unbroken_ofTree_parse (options : ParseOptions) (text : Text) : Unbroken (ofTree (parse options text)) := by
  intro item listed broken
  obtain ⟨n, member, -, same⟩ := (exists_bare_item_iff (linked_parse options text)).mp ⟨item, listed, rfl⟩
  have label : item.label = labelOf n.construct n.content := congrArg Item.label same.symm
  have suits := Construct.suits_ofContent options ((parse options text).parentKind n) n.content
  rw [← construct_of_mem_parse member] at suits
  rw [label] at broken
  rcases mem_of_mem_labelOf suits broken with mark | inside
  · exact absurd mark (by decide)
  · exact not_mem_content_of_mem_parse member inside

/-- An outline is the same as another one if the lines that show the items with their
    levels, one each, make up the same text. -/
theorem eq_of_printed {line : Nat × Item → Text} {items others : List Item}
    (shows : ∀ e f, line e = line f → bareAt e = bareAt f) (unbroken : ∀ e ∈ levelledAll 0 items, '\n' ∉ line e)
    (unbroken' : ∀ e ∈ levelledAll 0 others, '\n' ∉ line e)
    (same : ((levelledAll 0 items).flatMap fun e => line e ++ ['\n']) =
      (levelledAll 0 others).flatMap fun e => line e ++ ['\n']) : items = others := by
  have lines : (levelledAll 0 items).map line = (levelledAll 0 others).map line := by
    refine Text.eq_of_printed (List.forall_mem_map.mpr unbroken) (List.forall_mem_map.mpr unbroken') ?_
    rwa [List.flatMap_map, List.flatMap_map]
  exact eq_of_levels (Text.map_eq_of_map_eq lines fun e _ f _ => shows e f)

/-- The line that shows an item at a level, without its line break. -/
def shownLine (entry : Nat × Item) : Text :=
  Text.repeated entry.1 [' ', ' '] ++ (entry.2.kind.tag ++
    ' ' :: ((entry.2.label ++ " (line".toList) ++ ' ' :: (Text.ofNat entry.2.line ++ [')'])))

theorem itemLine_eq (level : Nat) (item : Item) :
    itemLine level item.label item.kind item.line = shownLine (level, item) ++ ['\n'] := by
  simp [itemLine, shownLine]

mutual

theorem Item.render_eq (level : Nat) : ∀ item : Item,
    item.render level = (item.levelled level).flatMap fun e => shownLine e ++ ['\n']
  | ⟨label, kind, line, children⟩ => by
    have here := itemLine_eq level ⟨label, kind, line, children⟩
    rw [Item.render, Item.levelled, List.flatMap_cons, renderAll_eq, here]

/-- A printed outline is made of the lines of its items from the top downwards. -/
theorem renderAll_eq (level : Nat) : ∀ items : List Item,
    renderAll level items = (levelledAll level items).flatMap fun e => shownLine e ++ ['\n']
  | [] => rfl
  | item :: rest => by
    rw [renderAll, levelledAll, List.flatMap_append, item.render_eq, renderAll_eq]

end

variable {e f : Nat × Item}

theorem not_mem_shownLine (unbroken : '\n' ∉ e.2.label) : '\n' ∉ shownLine e := by
  have indent := Text.not_mem_indent (c := '\n') (by decide) e.1
  have number := Text.not_mem_ofNat (c := '\n') (by decide) e.2.line
  have tag := e.2.kind.not_mem_tag.2.2
  simp [shownLine, indent, number, tag, unbroken]

/-- A line shows the level of its item and all of the item but those below it. -/
theorem eq_of_shownLine (same : shownLine e = shownLine f) : bareAt e = bareAt f := by
  obtain ⟨n, ⟨label, kind, line, children⟩⟩ := e
  obtain ⟨m, ⟨label', kind', line', children'⟩⟩ := f
  obtain ⟨rfl, same⟩ := Text.eq_of_indented (kind.head?_tag_append _) (kind'.head?_tag_append _) same
  -- The first space behind the indentation ends the kind, the last one begins the number.
  obtain ⟨kinds, texts⟩ :=
    Text.eq_of_append_cons kind.not_mem_tag.1 kind'.not_mem_tag.1 same
  have closing : ∀ k : Nat, ' ' ∉ Text.ofNat k ++ [')'] := fun k => by
    simp [Text.not_mem_ofNat (c := ' ') (by decide) k]
  obtain ⟨labels, lines⟩ := Text.eq_of_append_cons_of_last (closing line) (closing line') texts
  obtain rfl := Kind.eq_of_tag kinds
  obtain rfl := List.append_cancel_right labels
  obtain rfl := Text.eq_of_ofNat_eq (List.append_cancel_right lines)
  rfl

end Outline

/-- Outlines with labels of one line each are the same if they are printed alike. -/
theorem Outline.eq_of_render {items others : List Item} (unbroken : Unbroken items) (unbroken' : Unbroken others)
    (same : render items = render others) : items = others := by
  have labels : ∀ {items : List Item}, Unbroken items → ∀ e ∈ levelledAll 0 items, '\n' ∉ shownLine e := by
    intro items unbroken e listed
    exact not_mem_shownLine (unbroken e.2 (map_snd_levelledAll 0 items ▸ List.mem_map_of_mem listed))
  unfold render at same
  rw [renderAll_eq, renderAll_eq] at same
  exact eq_of_printed (fun _ _ => eq_of_shownLine) (labels unbroken) (labels unbroken') same

/-- Outlines with labels of one line each are printed alike exactly if they are the same,
    and the outline of a script has such labels. -/
theorem Outline.render_eq_iff :
    (∀ items others, Unbroken items → Unbroken others → (render items = render others ↔ items = others)) ∧
    ∀ options text, Unbroken (ofTree (parse options text)) := by
  refine ⟨fun items others unbroken unbroken' => ?_, unbroken_ofTree_parse⟩
  constructor
  · exact eq_of_render unbroken unbroken'
  · rintro rfl
    rfl

/-- An item below another one, and the same items side by side, with labels that look
    like lines of a printed outline. -/
theorem Outline.render_eq_iff_lookalikes :
    ∃ items others, Unbroken items ∧ Unbroken others ∧
      (preorderAll items).map (·.label) = (preorderAll others).map (·.label) ∧ render items ≠ render others := by
  let below : Item := ⟨"  LOOP b (line 2)".toList, .event, 7, []⟩
  let items : List Item := [⟨"a (line 7)".toList, .event, 1, [below]⟩]
  let others : List Item := [⟨"a (line 7)".toList, .event, 1, []⟩, below]
  have unbroken : ∀ forest : List Item, (preorderAll forest).map (·.label) = (preorderAll others).map (·.label) →
      Unbroken forest := by
    intro forest same item listed
    have label := List.mem_map_of_mem (f := Item.label) listed
    rw [same] at label
    exact (by decide : ∀ l ∈ ["a (line 7)".toList, "  LOOP b (line 2)".toList], '\n' ∉ l) _ label
  refine ⟨items, others, unbroken items rfl, unbroken others rfl, rfl, fun alike => ?_⟩
  have merged := (render_eq_iff.1 items others (unbroken items rfl) (unbroken others rfl)).mp alike
  exact absurd (congrArg List.length merged) (by decide)

end ScriptAtlas
