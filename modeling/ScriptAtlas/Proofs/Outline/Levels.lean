import ScriptAtlas.Proofs.Outline.Entries

/-!
Outlines as lists of items with their levels. An item stands directly under the last
item before it that is one level further up, so what is below the items can be
forgotten: the items from the top downwards and their levels determine an outline of
any shape (`eq_of_levels`).
-/
namespace ScriptAtlas.Outline

/-! ### Items and their levels -/

mutual

/-- An item at a level and all below it, each before those below it, with their levels. -/
def Item.levelled (level : Nat) : Item → List (Nat × Item)
  | ⟨label, kind, line, children⟩ => (level, ⟨label, kind, line, children⟩) :: levelledAll (level + 1) children

/-- The items of a list at a level and all below them, with their levels. -/
def levelledAll (level : Nat) : List Item → List (Nat × Item)
  | [] => []
  | item :: rest => item.levelled level ++ levelledAll level rest

end

theorem levelledAll_append (level : Nat) (items others : List Item) :
    levelledAll level (items ++ others) = levelledAll level items ++ levelledAll level others := by
  induction items with
  | nil => rfl
  | cons item rest ih => rw [List.cons_append, levelledAll, ih, levelledAll, List.append_assoc]

theorem levelledAll_flatMap {α : Type} (level : Nat) (xs : List α) (f : α → List Item) :
    levelledAll level (xs.flatMap f) = xs.flatMap fun x => levelledAll level (f x) := by
  induction xs with
  | nil => rfl
  | cons x rest ih => rw [List.flatMap_cons, levelledAll_append, ih, List.flatMap_cons]

mutual

theorem Item.map_snd_levelled (level : Nat) : ∀ item : Item, (item.levelled level).map (·.2) = item.preorder
  | ⟨label, kind, line, children⟩ => by
    rw [Item.levelled, Item.preorder, List.map_cons, map_snd_levelledAll]

theorem map_snd_levelledAll (level : Nat) : ∀ items : List Item,
    (levelledAll level items).map (·.2) = preorderAll items
  | [] => rfl
  | item :: rest => by
    rw [levelledAll, preorderAll, List.map_append, item.map_snd_levelled, map_snd_levelledAll]

end

/-- An item at its level without those below it. -/
def bareAt (entry : Nat × Item) : Nat × Item := (entry.1, entry.2.bare)

/-- The items of an outline from the top downwards, each with its level and without
    those below it. -/
def levels (items : List Item) : List (Nat × Item) := (levelledAll 0 items).map bareAt

/-! ### Outlines from levels -/

/-- What follows the items of a level begins further up. -/
def Ascends (level : Nat) (rest : List (Nat × Item)) : Prop := ∀ entry ∈ rest.head?, entry.1 < level

theorem ascends_nil (level : Nat) : Ascends level [] := by
  intro entry member
  cases member

theorem Ascends.below {level : Nat} {rest : List (Nat × Item)} (ascends : Ascends level rest) (items : List Item) :
    Ascends (level + 1) ((levelledAll level items).map bareAt ++ rest) := by
  cases items with
  | nil => exact fun entry member => Nat.lt_succ_of_lt (ascends entry member)
  | cons item items =>
    obtain ⟨label, kind, line, children⟩ := item
    intro entry member
    obtain rfl : (level, Item.bare ⟨label, kind, line, children⟩) = entry := Option.some.inj member
    exact Nat.lt_succ_self level

/-- Items with their levels determine the items, and what follows further up. -/
theorem eq_of_levelledAll {level : Nat} {u v : List (Nat × Item)} : ∀ items others : List Item,
    Ascends level u → Ascends level v →
      (levelledAll level items).map bareAt ++ u = (levelledAll level others).map bareAt ++ v →
        items = others ∧ u = v
  | [], [], _, _, same => ⟨rfl, same⟩
  | [], ⟨label, kind, line, children⟩ :: rest, ascends, _, same => by
    have same : u = (level, Item.bare ⟨label, kind, line, children⟩) :: _ := same
    have further := ascends (level, Item.bare ⟨label, kind, line, children⟩) (by rw [same]; rfl)
    omega
  | ⟨label, kind, line, children⟩ :: rest, [], _, ascends, same => by
    have same : _ = v := same
    have further := ascends (level, Item.bare ⟨label, kind, line, children⟩) (by rw [← same]; rfl)
    omega
  | ⟨label, kind, line, children⟩ :: rest, ⟨label', kind', line', children'⟩ :: rest', ascends, ascends', same => by
    simp only [levelledAll, Item.levelled, List.cons_append, List.map_cons, List.map_append, List.append_assoc,
      List.cons.injEq, bareAt, Item.bare, Prod.mk.injEq, Item.mk.injEq, true_and, and_true] at same
    obtain ⟨⟨rfl, rfl, rfl⟩, same⟩ := same
    obtain ⟨rfl, beside⟩ := eq_of_levelledAll children children' (ascends.below rest) (ascends'.below rest') same
    obtain ⟨rfl, rfl⟩ := eq_of_levelledAll rest rest' ascends ascends' beside
    exact ⟨rfl, rfl⟩

/-- The items of an outline with their levels determine the outline. -/
theorem eq_of_levels {items others : List Item} (same : levels items = levels others) : items = others := by
  refine (eq_of_levelledAll (u := []) (v := []) items others (ascends_nil 0) (ascends_nil 0) ?_).1
  rw [List.append_nil, List.append_nil]
  exact same

end ScriptAtlas.Outline
