import Mathlib.Data.List.Sort
import Mathlib.Logic.Relation
import ScriptAtlas.Proofs.Script.Ancestry

/-!
The walk through a tree, from the roots downwards and each node before its
children. The walk that starts at a node passes what stands `Below` the node
(`Tree.Linked.mem_subtree_iff`), and nothing stands below two nodes under the
same parent, so the whole walk passes every node once
(`Tree.Linked.perm_preorder`). What leads from a node to all below it, and from
all in one branch to all in a later one, holds along the walk
(`Tree.Linked.pairwise_walk`).
-/
namespace ScriptAtlas

/-! ### Entries in order -/

/-- Entries in order of their positions are determined by what they contain. -/
theorem eq_of_increasing {left right : List (Nat × Node)} (first : left.Pairwise fun e f => e.1 < f.1)
    (second : right.Pairwise fun e f => e.1 < f.1) (same : ∀ e, e ∈ left ↔ e ∈ right) : left = right := by
  have : Std.Antisymm fun e f : Nat × Node => e.1 < f.1 :=
    ⟨fun _ _ less greater => absurd less (Nat.lt_asymm greater)⟩
  have : Std.Irrefl fun e f : Nat × Node => e.1 < f.1 := ⟨fun _ => Nat.lt_irrefl _⟩
  exact first.eq_of_mem_iff second same

/-- A beginning of such entries has an entry if it has all up to it. -/
theorem mem_takeWhile_iff {items : List (Nat × Node)} (increasing : items.Pairwise fun e f => e.1 < f.1)
    (P : Nat × Node → Bool) {e : Nat × Node} :
    e ∈ items.takeWhile P ↔ e ∈ items ∧ ∀ f ∈ items, f.1 ≤ e.1 → P f = true := by
  induction items with
  | nil => simp
  | cons x rest ih =>
    obtain ⟨first, tail⟩ := List.pairwise_cons.mp increasing
    rw [List.takeWhile_cons]
    cases holds : P x with
    | true =>
      rw [if_pos rfl, List.mem_cons, ih tail, List.mem_cons]
      constructor
      · rintro (rfl | ⟨member, all⟩)
        · refine ⟨Or.inl rfl, fun f member le => ?_⟩
          rcases List.mem_cons.mp member with rfl | later
          · exact holds
          · have := first f later
            omega
        · refine ⟨Or.inr member, fun f inside le => ?_⟩
          rcases List.mem_cons.mp inside with rfl | later
          · exact holds
          · exact all f later le
      · rintro ⟨rfl | member, all⟩
        · exact Or.inl rfl
        · exact Or.inr ⟨member, fun f inside => all f (List.mem_cons_of_mem x inside)⟩
    | false =>
      simp only [Bool.false_eq_true, if_false, List.not_mem_nil, false_iff, not_and]
      intro member all
      have le : x.1 ≤ e.1 := by
        rcases List.mem_cons.mp member with rfl | later
        · exact Nat.le_refl _
        · exact Nat.le_of_lt (first e later)
      have fails := all x List.mem_cons_self le
      rw [holds] at fails
      cases fails

namespace Tree

variable {t : Tree} {id p q c d : Nat} {n : Node}

/-! ### Standing below a node -/

/-- The node at `c` has its parent at `p`. -/
def IsParent (t : Tree) (p c : Nat) : Prop := ∃ m, t.get? c = some m ∧ m.parent = some p

/-- The node at `c` is the one at `id` or stands somewhere below it. -/
def Below (t : Tree) : Nat → Nat → Prop := Relation.ReflTransGen t.IsParent

theorem IsParent.unique (left : t.IsParent p c) (right : t.IsParent q c) : p = q := by
  obtain ⟨m, found, up⟩ := left
  obtain ⟨m', found', up'⟩ := right
  rw [found] at found'
  cases found'
  exact Option.some.inj (up.symm.trans up')

theorem exists_of_below (found : t.get? id = some n) (below : t.Below id c) : ∃ m, t.get? c = some m := by
  rcases Relation.ReflTransGen.cases_tail below with rfl | ⟨_, -, m, at_c, -⟩
  · exact ⟨n, found⟩
  · exact ⟨m, at_c⟩

theorem Linked.le_of_below (linked : t.Linked) (below : t.Below id c) : id ≤ c := by
  induction below with
  | refl => exact Nat.le_refl id
  | @tail p c _ up ih =>
    obtain ⟨m, found, up⟩ := up
    have := linked.earlier c m p found up
    omega

/-- The walk that starts at a node passes exactly what stands below the node. -/
theorem Linked.mem_subtree_iff (linked : t.Linked) (found : t.get? id = some n) :
    c ∈ t.subtree id ↔ t.Below id c := by
  constructor
  · refine linked.induction (P := fun id _ => c ∈ t.subtree id → t.Below id c) (fun id n found ih member => ?_)
      id n found
    rw [linked.subtree_eq found, List.mem_cons, List.mem_flatMap] at member
    rcases member with rfl | ⟨d, child, inside⟩
    · exact Relation.ReflTransGen.refl
    · obtain ⟨m, at_d, up⟩ := (linked.mem_children found).mp child
      exact Relation.ReflTransGen.head ⟨m, at_d, up⟩ (ih d m at_d up inside)
  · intro below
    induction below with
    | refl => exact linked.mem_subtree_self found
    | tail _ up ih =>
      obtain ⟨m, at_c, up⟩ := up
      exact linked.mem_subtree_child at_c up id n found ih

/-- Nothing stands below two nodes under the same parent. -/
theorem Linked.not_below_both (linked : t.Linked) {parent : Option Nat} (left : c ∈ t.idsUnder parent)
    (right : d ∈ t.idsUnder parent) (earlier : c < d) (below : t.Below c q) : ¬ t.Below d q := by
  intro other
  have unique : Relator.RightUnique (Function.swap t.IsParent) := fun _ _ _ => IsParent.unique
  rcases Relation.ReflTransGen.total_of_right_unique unique below.swap other.swap with up | up
  · have := linked.le_of_below (Relation.reflTransGen_swap.mp up)
    omega
  · -- The later of the two would stand below the earlier one, so its parent would too.
    obtain ⟨m, at_c, parent_c⟩ := mem_idsUnder.mp left
    obtain ⟨m', at_d, parent_d⟩ := mem_idsUnder.mp right
    rcases Relation.ReflTransGen.cases_tail (Relation.reflTransGen_swap.mp up) with same | ⟨p, above, k, at_d', up⟩
    · omega
    · rw [at_d] at at_d'
      cases at_d'
      have less := linked.earlier c m p at_c (by rw [parent_c, ← parent_d, up])
      have := linked.le_of_below above
      omega

/-! ### The order of the walk -/

section
variable {R : Nat → Nat → Prop}

private theorem Linked.pairwise_branches (linked : t.Linked)
    (across : ∀ parent c d, c ∈ t.idsUnder parent → d ∈ t.idsUnder parent → c < d →
      ∀ e f, t.Below c e → t.Below d f → R e f) (parent : Option Nat)
    (branches : ∀ c ∈ t.idsUnder parent, (t.subtree c).Pairwise R) :
    ((t.idsUnder parent).flatMap t.subtree).Pairwise R := by
  refine List.pairwise_flatMap.mpr ⟨branches, ?_⟩
  refine (idsUnder_increasing t parent).imp_of_mem fun {c d} left right earlier e inside f inside' => ?_
  obtain ⟨m, at_c, -⟩ := mem_idsUnder.mp left
  obtain ⟨m', at_d, -⟩ := mem_idsUnder.mp right
  exact across parent c d left right earlier e f ((linked.mem_subtree_iff at_c).mp inside)
    ((linked.mem_subtree_iff at_d).mp inside')

/-- A relation that leads from a node to all below it, and from all in one
    branch to all in a later one, holds along the walk that starts at a node. -/
theorem Linked.pairwise_subtree (linked : t.Linked) (down : ∀ id d, t.Below id d → id < d → R id d)
    (across : ∀ parent c d, c ∈ t.idsUnder parent → d ∈ t.idsUnder parent → c < d →
      ∀ e f, t.Below c e → t.Below d f → R e f) :
    ∀ id n, t.get? id = some n → (t.subtree id).Pairwise R := by
  refine linked.induction fun id n found ih => ?_
  rw [linked.subtree_eq found, List.pairwise_cons]
  constructor
  · intro d member
    obtain ⟨c, child, inside⟩ := List.mem_flatMap.mp member
    obtain ⟨m, at_c, up⟩ := (linked.mem_children found).mp child
    have below := (linked.mem_subtree_iff at_c).mp inside
    have later := linked.earlier c m id at_c up
    have := linked.le_of_below below
    exact down id d (Relation.ReflTransGen.head ⟨m, at_c, up⟩ below) (by omega)
  · rw [linked.children id n found]
    refine linked.pairwise_branches across (some id) fun c child => ?_
    obtain ⟨m, at_c, up⟩ := mem_idsUnder.mp child
    exact ih c m at_c up

/-- Such a relation holds along the whole walk. -/
theorem Linked.pairwise_walk (linked : t.Linked) (down : ∀ id d, t.Below id d → id < d → R id d)
    (across : ∀ parent c d, c ∈ t.idsUnder parent → d ∈ t.idsUnder parent → c < d →
      ∀ e f, t.Below c e → t.Below d f → R e f) : t.walk.Pairwise R := by
  rw [walk, linked.roots]
  refine linked.pairwise_branches across none fun root top => ?_
  obtain ⟨n, at_root, -⟩ := mem_idsUnder.mp top
  exact linked.pairwise_subtree down across root n at_root

end

theorem Linked.nodup_subtree (linked : t.Linked) (found : t.get? id = some n) : (t.subtree id).Nodup := by
  refine linked.pairwise_subtree (fun _ _ _ => Nat.ne_of_lt) ?_ id n found
  rintro parent c d left right earlier e _ below other rfl
  exact linked.not_below_both left right earlier below other

theorem Linked.nodup_walk (linked : t.Linked) : t.walk.Nodup := by
  refine linked.pairwise_walk (fun _ _ _ => Nat.ne_of_lt) ?_
  rintro parent c d left right earlier e _ below other rfl
  exact linked.not_below_both left right earlier below other

theorem Linked.mem_subtree_tail_iff (linked : t.Linked) (found : t.get? id = some n) :
    c ∈ (t.subtree id).tail ↔ t.Below id c ∧ id < c := by
  have once := linked.nodup_subtree found
  rw [← linked.mem_subtree_iff found]
  rw [linked.subtree_eq found] at once ⊢
  have above := (List.nodup_cons.mp once).1
  rw [List.tail_cons, List.mem_cons]
  constructor
  · intro member
    have below : t.Below id c := by
      rw [← linked.mem_subtree_iff found, linked.subtree_eq found]
      exact List.mem_cons_of_mem _ member
    have apart : id ≠ c := fun same => above (same ▸ member)
    have := linked.le_of_below below
    exact ⟨Or.inr member, by omega⟩
  · rintro ⟨rfl | member, later⟩
    · omega
    · exact member

/-! ### The nodes of the walk -/

/-- The nodes at some positions, with their positions. -/
def entriesAt (t : Tree) (ids : List Nat) : List (Nat × Node) :=
  ids.filterMap fun id => (t.get? id).map (id, ·)

theorem mem_entriesAt {ids : List Nat} {e : Nat × Node} :
    e ∈ t.entriesAt ids ↔ e.1 ∈ ids ∧ t.get? e.1 = some e.2 := by
  obtain ⟨i, m⟩ := e
  simp only [entriesAt, List.mem_filterMap, Option.map_eq_some_iff, Prod.mk.injEq]
  constructor
  · rintro ⟨_, member, _, found, rfl, rfl⟩
    exact ⟨member, found⟩
  · rintro ⟨member, found⟩
    exact ⟨i, member, m, found, rfl, rfl⟩

theorem pairwise_entriesAt {ids : List Nat} {R : Nat × Node → Nat × Node → Prop}
    (along : ids.Pairwise fun i j => ∀ n m, t.get? i = some n → t.get? j = some m → R (i, n) (j, m)) :
    (t.entriesAt ids).Pairwise R := by
  refine List.pairwise_filterMap.mpr (along.imp fun {i j} holds e found f found' => ?_)
  obtain ⟨n, at_i, rfl⟩ := Option.map_eq_some_iff.mp found
  obtain ⟨m, at_j, rfl⟩ := Option.map_eq_some_iff.mp found'
  exact holds n m at_i at_j

theorem mem_entries {e : Nat × Node} : e ∈ t.entries ↔ t.get? e.1 = some e.2 := by
  obtain ⟨i, m⟩ := e
  simp [entries, get?, List.mem_zipIdx_iff_getElem?]

theorem entries_increasing (t : Tree) : t.entries.Pairwise fun e f => e.1 < f.1 := by
  refine List.pairwise_map.mpr (List.pairwise_iff_getElem.mpr fun i j _ _ less => ?_)
  simpa using less

theorem map_snd_entries (t : Tree) : t.entries.map (·.2) = t.nodes := by
  rw [entries, List.map_map]
  exact List.zipIdx_map_fst 0 t.nodes

/-- The walk that starts at a node on some level. -/
def walkFrom (t : Tree) (level id : Nat) : List (Nat × Nat × Node) :=
  ((t.fold (fun id n below level => (level, id, n) :: below.flatMap (· (level + 1))) id).map (· level)).getD []

/-- The walk passes a node and then, one level further down, its children in order. -/
theorem Linked.walkFrom_eq (linked : t.Linked) (found : t.get? id = some n) (level : Nat) :
    t.walkFrom level id = (level, id, n) :: n.children.flatMap (t.walkFrom (level + 1)) := by
  rw [walkFrom, linked.fold_eq _ found, Option.map_some, Option.getD_some]
  exact congrArg _ (flatMap_filterMap ..)

theorem preorder_eq (t : Tree) : t.preorder = t.roots.flatMap (t.walkFrom 0) := by
  rw [preorder, foldRoots, flatMap_filterMap]
  rfl

theorem Linked.map_walkFrom (linked : t.Linked) :
    ∀ id n, t.get? id = some n → ∀ level, (t.walkFrom level id).map (·.2) = t.entriesAt (t.subtree id) := by
  refine linked.induction fun id n found ih level => ?_
  rw [linked.walkFrom_eq found, linked.subtree_eq found, List.map_cons, List.map_flatMap, entriesAt,
    List.filterMap_cons, found, List.filterMap_flatMap]
  refine congrArg _ (List.flatMap_congr fun c child => ?_)
  obtain ⟨m, at_c, up⟩ := (linked.mem_children found).mp child
  exact ih c m at_c up (level + 1)

theorem Linked.map_preorder (linked : t.Linked) : t.preorder.map (·.2) = t.entriesAt t.walk := by
  rw [preorder_eq, List.map_flatMap, walk, entriesAt, List.filterMap_flatMap]
  refine List.flatMap_congr fun root top => ?_
  obtain ⟨n, at_root, -⟩ := linked.mem_roots.mp top
  exact linked.map_walkFrom root n at_root 0

/-- The walk passes every node once. -/
theorem Linked.perm_preorder (linked : t.Linked) : (t.preorder.map (·.2)).Perm t.entries := by
  have once : (t.entriesAt t.walk).Nodup :=
    pairwise_entriesAt (linked.nodup_walk.imp fun apart _ _ _ _ same => apart (congrArg Prod.fst same))
  have listed : t.entries.Nodup :=
    (entries_increasing t).imp fun less same => Nat.ne_of_lt less (congrArg Prod.fst same)
  rw [linked.map_preorder, List.perm_ext_iff_of_nodup once listed]
  intro e
  rw [mem_entriesAt, mem_entries]
  exact and_iff_right_of_imp linked.mem_walk

end Tree

end ScriptAtlas
