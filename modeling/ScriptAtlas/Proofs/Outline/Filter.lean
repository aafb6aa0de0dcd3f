import Mathlib.Data.List.Infix
import ScriptAtlas.Proofs.Outline.Levels

/-!
What a filter leaves of an outline. An item is kept exactly if the keyword is in the
lower case form of its label or of the label of an item below it (`Item.leadsTo`), so
the items kept at any level are those that lead to the keyword, at the level where they
were (`levelledAll_keepAll`). As items that lead to a keyword lead to every part of it,
filtering by a part first changes nothing (`keepAll_keepAll`, `filter_exact`).
-/
namespace ScriptAtlas.Outline

variable {keyword : Text}

/-- Whether the keyword is in the lower case form of the item's label or of a label below it. -/
def Item.leadsTo (keyword : Text) (item : Item) : Bool :=
  item.preorder.any fun below => keyword <:+: Text.lowercase below.label

theorem Item.leadsTo_iff {item : Item} :
    item.leadsTo keyword = true ↔ ∃ below ∈ item.preorder, keyword <:+: Text.lowercase below.label := by
  simp [leadsTo]

theorem Item.leadsTo_of_own {item : Item} (own : keyword <:+: Text.lowercase item.label) :
    item.leadsTo keyword = true := by
  obtain ⟨label, kind, line, children⟩ := item
  exact leadsTo_iff.mpr ⟨_, List.mem_cons_self, own⟩

/-- An item that leads to a keyword leads to every part of it. -/
theorem Item.leadsTo_of_part {longer : Text} (part : keyword <:+: longer) {item : Item}
    (leads : item.leadsTo longer = true) : item.leadsTo keyword = true := by
  obtain ⟨below, inside, own⟩ := leadsTo_iff.mp leads
  exact leadsTo_iff.mpr ⟨below, inside, part.trans own⟩

/-! ### The items that are kept -/

theorem keepAll_cons (keyword : Text) (item : Item) (rest : List Item) :
    keepAll keyword (item :: rest) = (item.keep keyword).toList ++ keepAll keyword rest := by
  rw [keepAll]
  cases item.keep keyword <;> rfl

mutual

theorem Item.isSome_keep_iff (keyword : Text) : ∀ item : Item,
    (item.keep keyword).isSome = true ↔ item.leadsTo keyword = true
  | ⟨label, kind, line, children⟩ => by
    have below := keepAll_ne_nil_iff keyword children
    rw [Item.keep, Item.leadsTo_iff, Item.preorder, List.exists_mem_cons_iff, ← below, ← Text.hasPart_iff_infix]
    split <;> simp_all

theorem keepAll_ne_nil_iff (keyword : Text) : ∀ items : List Item,
    keepAll keyword items ≠ [] ↔ ∃ below ∈ preorderAll items, keyword <:+: Text.lowercase below.label
  | [] => by simp [keepAll, preorderAll]
  | item :: rest => by
    have first := item.isSome_keep_iff keyword
    have others := keepAll_ne_nil_iff keyword rest
    rw [keepAll_cons, preorderAll]
    simp only [List.mem_append, or_and_right, exists_or, ← others, ← Item.leadsTo_iff, ← first]
    cases item.keep keyword <;> simp

end

theorem Item.leadsTo_iff_keepAll {label : Text} {kind : Kind} {line : Nat} {children : List Item} :
    Item.leadsTo keyword ⟨label, kind, line, children⟩ = true ↔
      keyword <:+: Text.lowercase label ∨ keepAll keyword children ≠ [] := by
  rw [leadsTo_iff, preorder, List.exists_mem_cons_iff, keepAll_ne_nil_iff]

/-- An item that leads to the keyword is kept with what is kept below it. -/
theorem Item.keep_eq (keyword label : Text) (kind : Kind) (line : Nat) (children : List Item) :
    Item.keep keyword ⟨label, kind, line, children⟩ =
      if Item.leadsTo keyword ⟨label, kind, line, children⟩ then some ⟨label, kind, line, keepAll keyword children⟩
      else none := by
  rw [keep]
  simp only [Bool.or_eq_true, Text.hasPart_iff_infix, Bool.not_eq_true', List.isEmpty_eq_false_iff, leadsTo_iff_keepAll]

mutual

theorem Item.levelled_keep (level : Nat) : ∀ item : Item,
    (levelledAll level (item.keep keyword).toList).map bareAt =
      ((item.levelled level).filter (·.2.leadsTo keyword)).map bareAt
  | ⟨label, kind, line, children⟩ => by
    have below := levelledAll_keepAll (level + 1) children
    rw [Item.keep_eq, Item.levelled, List.filter_cons]
    split
    · simp [levelledAll, Item.levelled, bareAt, Item.bare, below]
    · rename_i dropped
      -- Nothing below an item that is dropped is kept.
      rw [Item.leadsTo_iff_keepAll, not_or, not_not] at dropped
      rw [dropped.2] at below
      exact below

/-- The items that are kept are those that lead to the keyword, at the level where they were. -/
theorem levelledAll_keepAll (level : Nat) : ∀ items : List Item,
    (levelledAll level (keepAll keyword items)).map bareAt =
      ((levelledAll level items).filter (·.2.leadsTo keyword)).map bareAt
  | [] => rfl
  | item :: rest => by
    have first := item.levelled_keep level
    have others := levelledAll_keepAll level rest
    rw [keepAll_cons, levelledAll_append, List.map_append, first, others, levelledAll, List.filter_append,
      List.map_append]

end

/-! ### Labels that are asked for -/

/-- The items of a forest at any level, from the top downwards, without those below them. -/
def listed (items : List Item) : List Item := (preorderAll items).map Item.bare

theorem listed_eq (level : Nat) (items : List Item) :
    listed items = ((levelledAll level items).map bareAt).map (·.2) := by
  rw [listed, ← map_snd_levelledAll level, List.map_map, List.map_map]
  rfl

theorem label_bare (item : Item) : item.bare.label = item.label := rfl

/-- The items whose label has what is asked stay as they are listed, if only labels
    with the keyword have it. -/
theorem filter_listed_keepAll {asked : Text → Bool}
    (hit : ∀ label, asked label = true → Text.hasPart keyword (Text.lowercase label) = true) (items : List Item) :
    (listed (keepAll keyword items)).filter (asked ·.label) = (listed items).filter (asked ·.label) := by
  have leads : ∀ entry : Nat × Item, asked entry.2.label = true → entry.2.leadsTo keyword = true :=
    fun entry found => Item.leadsTo_of_own (Text.hasPart_iff_infix.mp (hit entry.2.label found))
  rw [listed_eq 0, listed_eq 0, levelledAll_keepAll]
  simp only [List.filter_map, List.filter_filter, Function.comp_def, bareAt, label_bare]
  congr 3
  funext entry
  cases found : asked entry.2.label with
  | true => rw [leads entry found, Bool.and_self]
  | false => rfl

/-! ### One filter after the other -/

mutual

/-- Keeping an item for a part of a keyword first changes nothing of what is kept of it. -/
theorem Item.keep_bind_keep {longer : Text} (part : keyword <:+: longer) : ∀ item : Item,
    (item.keep keyword).bind (·.keep longer) = item.keep longer
  | ⟨label, kind, line, children⟩ => by
    have below := keepAll_keepAll part children
    rw [Item.keep_eq keyword]
    split
    · rw [Option.bind_some, Item.keep, below, Item.keep]
    · rename_i dropped
      rw [Item.keep_eq, if_neg fun leads => dropped (Item.leadsTo_of_part part leads), Option.bind_none]

/-- Keeping items for a part of a keyword first changes nothing of what is kept of them. -/
theorem keepAll_keepAll {longer : Text} (part : keyword <:+: longer) : ∀ items : List Item,
    keepAll longer (keepAll keyword items) = keepAll longer items
  | [] => rfl
  | item :: rest => by
    have first := item.keep_bind_keep part
    have others := keepAll_keepAll part rest
    rw [keepAll_cons, keepAll_cons, ← first]
    cases item.keep keyword with
    | none => exact others
    | some kept => rw [Option.toList_some, List.singleton_append, keepAll_cons, others, Option.bind_some]

end

/-! ### Filters -/

theorem keywordOf_eq_nil_iff : keywordOf keyword = [] ↔ Text.allBlank keyword = true := by
  rw [keywordOf, Text.lowercase_eq_nil_iff, Text.trim_eq_nil_iff]

theorem filter_of_blank (blank : Text.allBlank keyword = true) (items : List Item) : filter items keyword = items := by
  rw [filter, keywordOf_eq_nil_iff.mpr blank]
  rfl

theorem filter_eq_keepAll (some : Text.allBlank keyword = false) (items : List Item) :
    filter items keyword = keepAll (keywordOf keyword) items := by
  have full : ¬ (keywordOf keyword).isEmpty = true := by
    rw [List.isEmpty_iff, keywordOf_eq_nil_iff, some]
    exact Bool.false_ne_true
  rw [filter, if_neg full]

/-- Filtering by a keyword first changes nothing of what is left by one that contains it. -/
theorem filter_filter {longer : Text} (part : keywordOf keyword <:+: keywordOf longer) (items : List Item) :
    filter (filter items keyword) longer = filter items longer := by
  cases blank : Text.allBlank keyword with
  | true => rw [filter_of_blank blank]
  | false =>
    have filled : Text.allBlank longer = false := by
      rw [← Bool.not_eq_true, ← keywordOf_eq_nil_iff]
      intro empty
      rw [empty, List.infix_nil, keywordOf_eq_nil_iff, blank] at part
      cases part
    rw [filter_eq_keepAll blank, filter_eq_keepAll filled, filter_eq_keepAll filled, keepAll_keepAll part]

/-- What is left by a keyword that is not blank is the one outline whose items are
    those that lead to it, in the same order and at the same level. A blank keyword
    leaves everything, the same keyword again changes nothing, and neither does a part
    of a keyword before it. -/
theorem filter_exact (items : List Item) (keyword : Text) :
    (Text.allBlank keyword = false → ∀ kept, filter items keyword = kept ↔
      levels kept = ((levelledAll 0 items).filter (·.2.leadsTo (keywordOf keyword))).map bareAt) ∧
    (Text.allBlank keyword = true → filter items keyword = items) ∧
    filter (filter items keyword) keyword = filter items keyword ∧
    ∀ longer, keywordOf keyword <:+: keywordOf longer →
      filter (filter items keyword) longer = filter items longer := by
  refine ⟨fun filled kept => ?_, fun blank => filter_of_blank blank items, ?_, fun longer part => ?_⟩
  · rw [filter_eq_keepAll filled, ← levelledAll_keepAll]
    exact ⟨fun same => same ▸ rfl, fun same => (eq_of_levels same).symm⟩
  · exact filter_filter (List.infix_refl _) items
  · exact filter_filter part items

/-- A loop leads to the keyword and keeps what is above it, its neighbours go. -/
theorem filter_exact_nested :
    let loop : Item := ⟨"Loop 3 TIMES".toList, .loop, 3, [⟨"x".toList, .setVar, 4, []⟩]⟩
    let items : List Item :=
      [⟨"join".toList, .event, 1, [⟨"if a".toList, .ifStatement, 2, []⟩, loop]⟩, ⟨"spawn".toList, .command, 5, []⟩]
    Text.allBlank " lOO ".toList = false ∧
      filter items " lOO ".toList = [⟨"join".toList, .event, 1, [⟨"Loop 3 TIMES".toList, .loop, 3, []⟩]⟩] ∧
      Text.allBlank "\t".toList = true ∧ filter items "\t".toList = items ∧
      keywordOf " lOO ".toList <:+: keywordOf "LOOP 3".toList ∧
      filter (filter items " lOO ".toList) "LOOP 3".toList = filter items "LOOP 3".toList := by
  intro loop items
  obtain ⟨kept, -, -, again⟩ := filter_exact items " lOO ".toList
  obtain ⟨-, whole, -⟩ := filter_exact items "\t".toList
  have filled : Text.allBlank " lOO ".toList = false := by decide
  have blank : Text.allBlank "\t".toList = true := by decide
  have part : keywordOf " lOO ".toList <:+: keywordOf "LOOP 3".toList := by decide +kernel
  exact ⟨filled, (kept filled _).mpr rfl, blank, whole blank, part, again _ part⟩

end ScriptAtlas.Outline
