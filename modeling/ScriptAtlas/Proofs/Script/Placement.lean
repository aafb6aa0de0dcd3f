import Mathlib.Data.List.Induction
import ScriptAtlas.Script.Parse

/-!
The place of every line of a script. The open blocks that a placing keeps are
fewer than the lines with content before it, but they answer the one question
that is asked of them in the same way: which line is the nearest that is less
deep (`Follows`, `follows_after`). So a line with content belongs to the nearest
line with content before it that is less deep, and a blank line stands beside
the nearest line with content (`parse_parent_iff_nearest`).
-/
namespace ScriptAtlas

/-! ### The last item with a property -/

section
variable {α : Type}

/-- The last item with a property, with its position. -/
def lastWhere? (P : α → Bool) (items : List α) : Option (Nat × α) :=
  (items.zipIdx.reverse.find? fun e => P e.1).map fun e => (e.2, e.1)

theorem lastWhere?_append_singleton (P : α → Bool) (items : List α) (x : α) :
    lastWhere? P (items ++ [x]) = if P x then some (items.length, x) else lastWhere? P items := by
  rw [lastWhere?, List.zipIdx_append, List.reverse_append, lastWhere?]
  cases found : P x <;> simp [found]

theorem getElem?_concat_eq_some_iff {items : List α} {z x : α} {i : Nat} :
    (items ++ [z])[i]? = some x ↔ items[i]? = some x ∨ i = items.length ∧ z = x := by
  rcases Nat.lt_trichotomy i items.length with inside | rfl | beyond
  · rw [List.getElem?_append_left inside]
    simp [Nat.ne_of_lt inside]
  · simp
  · have outside : (items ++ [z]).length ≤ i := by rw [List.length_append]; exact beyond
    rw [List.getElem?_eq_none outside, List.getElem?_eq_none (Nat.le_of_lt beyond)]
    simp [Nat.ne_of_gt beyond]

theorem lastWhere?_eq_some_iff {P : α → Bool} {items : List α} {i : Nat} {x : α} :
    lastWhere? P items = some (i, x) ↔
      items[i]? = some x ∧ P x = true ∧ ∀ j y, i < j → items[j]? = some y → P y = false := by
  induction items using List.reverseRecOn with
  | nil => simp [lastWhere?]
  | append_singleton items z ih =>
    have inside : ∀ {j y}, items[j]? = some y → j < items.length := fun found =>
      (List.getElem?_eq_some_iff.mp found).1
    rw [lastWhere?_append_singleton]
    simp only [getElem?_concat_eq_some_iff]
    cases found : P z with
    | true =>
      rw [if_pos rfl, Option.some.injEq, Prod.mk.injEq]
      constructor
      · rintro ⟨rfl, rfl⟩
        refine ⟨Or.inr ⟨rfl, rfl⟩, found, fun j y later at_j => ?_⟩
        rcases at_j with earlier | ⟨rfl, -⟩
        · exact absurd (inside earlier) (Nat.lt_asymm later)
        · exact absurd later (Nat.lt_irrefl _)
      · rintro ⟨earlier | same, -, none⟩
        · rw [none _ z (inside earlier) (Or.inr ⟨rfl, rfl⟩)] at found
          cases found
        · exact ⟨same.1.symm, same.2⟩
    | false =>
      rw [if_neg Bool.false_ne_true, ih]
      constructor
      · rintro ⟨at_i, holds, none⟩
        refine ⟨Or.inl at_i, holds, fun j y later at_j => ?_⟩
        rcases at_j with at_j | ⟨-, rfl⟩
        · exact none j y later at_j
        · exact found
      · rintro ⟨at_i | ⟨-, rfl⟩, holds, none⟩
        · exact ⟨at_i, holds, fun j y later at_j => none j y later (Or.inl at_j)⟩
        · rw [found] at holds
          cases holds

/-- The last item before position `i` with a property is at `p`. -/
def LastBefore (P : α → Prop) (items : List α) (i p : Nat) : Prop :=
  p < i ∧ (∃ x, items[p]? = some x ∧ P x) ∧ ∀ j x, p < j → j < i → items[j]? = some x → ¬ P x

/-- A property of items that stand side by side with others can be looked for
    among the others. -/
theorem lastWhere?_take_iff {β : Type} {items : List α} {others : List β} {Q : α → Bool} {P : β → Prop}
    (paired : items.length = others.length)
    (agree : ∀ (j : Nat) x y, items[j]? = some x → others[j]? = some y → (Q x = true ↔ P y)) (i p : Nat) :
    (∃ x, lastWhere? Q (items.take i) = some (p, x)) ↔ LastBefore P others i p := by
  simp only [lastWhere?_eq_some_iff, List.getElem?_take]
  constructor
  · rintro ⟨x, at_p, holds, none⟩
    split at at_p
    · rename_i less
      have inside := (List.getElem?_eq_some_iff.mp at_p).1
      have other := List.getElem?_eq_getElem (paired ▸ inside)
      refine ⟨less, ⟨_, other, (agree p x _ at_p other).mp holds⟩, fun j y later earlier at_j shows => ?_⟩
      have within := (List.getElem?_eq_some_iff.mp at_j).1
      have item := List.getElem?_eq_getElem (paired ▸ within)
      have fails := none j _ later (by rw [if_pos earlier, item])
      rw [(agree j _ y item at_j).mpr shows] at fails
      cases fails
    · cases at_p
  · rintro ⟨less, ⟨y, at_p, shows⟩, none⟩
    have inside := (List.getElem?_eq_some_iff.mp at_p).1
    have item := List.getElem?_eq_getElem (paired ▸ inside)
    refine ⟨_, by rw [if_pos less, item], (agree p _ y item at_p).mpr shows, fun j x later at_j => ?_⟩
    split at at_j
    · rename_i earlier
      have within := (List.getElem?_eq_some_iff.mp at_j).1
      have other := List.getElem?_eq_getElem (paired ▸ within)
      exact Bool.eq_false_iff.mpr fun holds =>
        none j _ later earlier other ((agree j x _ at_j other).mp holds)
    · cases at_j

end

/-! ### The nodes of the lines -/

namespace Placing

variable {options : ParseOptions}

/-- The placing after some more lines, the first of which has position `id`. -/
def after (options : ParseOptions) : Placing → Nat → List Text → Placing
  | s, _, [] => s
  | s, id, raw :: rest => after options (s.next id raw (s.node options id raw)) (id + 1) rest

/-- Every line becomes the node that the placing after the lines before it says. -/
theorem getElem?_nodes (s : Placing) (id : Nat) (lines : List Text) (i : Nat) :
    (nodes options s id lines)[i]? =
      lines[i]?.map fun raw => (after options s id (lines.take i)).node options (id + i) raw := by
  induction lines generalizing s id i with
  | nil => rfl
  | cons raw rest ih =>
    rw [nodes]
    cases i with
    | zero => rfl
    | succ i =>
      rw [List.getElem?_cons_succ, ih, List.getElem?_cons_succ, List.take_succ_cons, after]
      simp only [Nat.add_assoc, Nat.add_comm 1]

theorem take_nodes (s : Placing) (id : Nat) (lines : List Text) (i : Nat) :
    (nodes options s id lines).take i = nodes options s id (lines.take i) := by
  induction lines generalizing s id i with
  | nil => rw [List.take_nil]; exact List.take_nil
  | cons raw rest ih =>
    cases i with
    | zero => rfl
    | succ i => rw [nodes, List.take_succ_cons, ih, List.take_succ_cons, nodes]

theorem length_nodes (s : Placing) (id : Nat) (lines : List Text) :
    (nodes options s id lines).length = lines.length := by
  induction lines generalizing s id with
  | nil => rfl
  | cons raw rest ih => rw [nodes, List.length_cons, ih, List.length_cons]

/-- A line has no content exactly if nothing follows its indentation. -/
theorem isBlank_node (options : ParseOptions) (s : Placing) (id : Nat) (raw : Text) :
    (s.node options id raw).isBlank = isBlankLine (readable (id + 1) raw) :=
  (isEmpty_contentOf _).trans (isBlankLine_eq _).symm

theorem parent_node (options : ParseOptions) (s : Placing) (id : Nat) (raw : Text) :
    (s.node options id raw).parent =
      (s.parentOf (s.node options id raw).depth (s.node options id raw).isBlank).map (·.id) := by
  rw [isBlank_node]
  rfl

theorem toLine_node (options : ParseOptions) (s : Placing) (id : Nat) (raw : Text) :
    (s.node options id raw).toLine =
      Line.read options ((s.parentOf (s.node options id raw).depth (s.node options id raw).isBlank).map (·.kind))
        (readable (id + 1) raw) := by
  rw [isBlank_node]
  rfl

/-! ### Placings with other blocks -/

/-- The placing with other blocks in the place of its own. -/
def map (f : Block → Block) (s : Placing) : Placing := ⟨s.opened.map f, s.beside.map f⟩

section
variable {f : Block → Block} (level : ∀ b, (f b).depth = b.depth)
include level

theorem enclosing_map (s : Placing) (depth : Nat) : (s.map f).enclosing depth = (s.enclosing depth).map f := by
  have same : (fun b : Block => decide (depth ≤ b.depth)) ∘ f = fun b => decide (depth ≤ b.depth) := by
    funext b
    rw [Function.comp_apply, level]
  rw [enclosing, map, List.dropWhile_map, same, enclosing]

/-- A line belongs to the other block in the place of the one that it belonged to. -/
theorem parentOf_map (s : Placing) (depth : Nat) (blank : Bool) :
    (s.map f).parentOf depth blank = (s.parentOf depth blank).map f := by
  cases blank with
  | true => rfl
  | false => simp [parentOf, enclosing_map level, List.head?_map]

end

/-! ### What the open blocks stand for -/

/-- The block that a node opens. -/
def blockAt (e : Nat × Node) : Block := ⟨e.1, e.2.depth, e.2.kind⟩

/-- A placing knows of the nodes before it what the next one needs. -/
structure Follows (s : Placing) (before : List Node) : Prop where
  nearest : ∀ depth, (s.enclosing depth).head? =
    (lastWhere? (fun n => !n.isBlank && decide (n.depth < depth)) before).map blockAt
  beside : s.beside.map (·.id) = (lastWhere? (!·.isBlank) before).bind (·.2.parent)
  standing : ∀ b, s.beside = some b → ∃ n, before[b.id]? = some n ∧ b = blockAt (b.id, n)

theorem dropWhile_dropWhile_of_imp {α : Type} {p q : α → Bool} (imp : ∀ a, p a = true → q a = true)
    (items : List α) : (items.dropWhile p).dropWhile q = items.dropWhile q := by
  induction items with
  | nil => rfl
  | cons a rest ih =>
    rw [List.dropWhile_cons]
    cases passed : p a with
    | true => rw [if_pos rfl, ih, List.dropWhile_cons_of_pos (imp a passed)]
    | false => rw [if_neg Bool.false_ne_true]

/-- Opening a block shadows the blocks that are at least as deep, and those only. -/
theorem head?_enclosing_push (s : Placing) (b : Block) (depth : Nat) :
    (({ s with opened := b :: s.enclosing b.depth } : Placing).enclosing depth).head? =
      if b.depth < depth then some b else (s.enclosing depth).head? := by
  rw [enclosing, List.dropWhile_cons]
  by_cases less : b.depth < depth
  -- The new block is the innermost one that is less deep.
  · simp [less, Nat.not_le.mpr less]
  -- The blocks that it closed are too deep for the next line as well.
  · have deep : depth ≤ b.depth := Nat.not_lt.mp less
    rw [if_pos (decide_eq_true deep), if_neg less, enclosing, enclosing, dropWhile_dropWhile_of_imp]
    intro a closed
    exact decide_eq_true (Nat.le_trans deep (of_decide_eq_true closed))

theorem follows_nil : Follows {} [] where
  nearest _ := rfl
  beside := rfl
  standing _ none := by cases none

/-- The block to which a line belongs is a node before it. -/
theorem Follows.parentOf_standing {s : Placing} {before : List Node} (follows : s.Follows before)
    (depth : Nat) (blank : Bool) {b : Block} (found : s.parentOf depth blank = some b) :
    ∃ n, before[b.id]? = some n ∧ b = blockAt (b.id, n) := by
  cases blank with
  | true => exact follows.standing b found
  | false =>
    have found : (s.enclosing depth).head? = some b := found
    rw [follows.nearest depth] at found
    obtain ⟨⟨i, n⟩, last, rfl⟩ := Option.map_eq_some_iff.mp found
    exact ⟨n, (lastWhere?_eq_some_iff.mp last).1, rfl⟩

/-- The next line keeps the placing in step with the nodes. -/
theorem Follows.next (options : ParseOptions) {s : Placing} {before : List Node} (follows : s.Follows before) (raw : Text) :
    (s.next before.length raw (s.node options before.length raw)).Follows
      (before ++ [s.node options before.length raw]) := by
  have kept : ∀ b n, before[b]? = some n →
      (before ++ [s.node options before.length raw])[b]? = some n := fun b n found => by
    rw [List.getElem?_append_left (List.getElem?_eq_some_iff.mp found).1, found]
  have read := isBlank_node options s before.length raw
  have parent := parent_node options s before.length raw
  generalize made : s.node options before.length raw = n at *
  rw [Placing.next, ← read]
  cases blank : n.isBlank with
  | true =>
    -- A blank line changes neither the placing nor the last line with content.
    refine ⟨fun depth => ?_, ?_, fun b found => ?_⟩
    · rw [if_pos rfl, follows.nearest, lastWhere?_append_singleton, blank]; rfl
    · rw [if_pos rfl, follows.beside, lastWhere?_append_singleton, blank]; rfl
    · obtain ⟨m, found, same⟩ := follows.standing b found
      exact ⟨m, kept _ m found, same⟩
  | false =>
    rw [blank] at parent
    refine ⟨fun depth => ?_, ?_, fun b found => ?_⟩
    · have pushed := head?_enclosing_push s ⟨before.length, n.depth, n.kind⟩ depth
      rw [follows.nearest] at pushed
      rw [if_neg Bool.false_ne_true, lastWhere?_append_singleton, blank]
      by_cases less : n.depth < depth
      · simp [enclosing, less, blockAt]
      · simpa [enclosing, less] using pushed
    · rw [if_neg Bool.false_ne_true, lastWhere?_append_singleton, blank]
      exact parent.symm
    · obtain ⟨m, found, same⟩ := follows.parentOf_standing n.depth false found
      exact ⟨m, kept _ m found, same⟩

theorem Follows.after {s : Placing} {before : List Node} (follows : s.Follows before) (lines : List Text) :
    (after options s before.length lines).Follows (before ++ nodes options s before.length lines) := by
  induction lines generalizing s before with
  | nil => rwa [nodes, List.append_nil]
  | cons raw rest ih =>
    have later := ih (follows.next options raw)
    rwa [List.length_append, List.length_singleton, List.append_assoc, List.singleton_append] at later

/-- After any lines the open blocks and the block beside which a blank line
    stands are what the nodes of these lines say. -/
theorem follows_after (lines : List Text) : (after options {} 0 lines).Follows (nodes options {} 0 lines) :=
  follows_nil.after lines

end Placing

/-! ### Every line in its place -/

section
variable {options : ParseOptions} {text : Text} {i : Nat} {n : Node}

/-- A node of a script is made from its line by a placing that knows the nodes before it. -/
theorem parse_node (found : (parse options text).nodes[i]? = some n) :
    ∃ raw s, (sourceLines text)[i]? = some raw ∧ n.bare = Placing.node options s i raw ∧
      s.Follows (((parse options text).nodes.map Node.bare).take i) := by
  have bare : ((parse options text).nodes.map Node.bare)[i]? = some n.bare := by
    rw [List.getElem?_map, found]
    rfl
  rw [map_bare_parse, Placing.getElem?_nodes, Nat.zero_add] at bare
  obtain ⟨raw, line, made⟩ := Option.map_eq_some_iff.mp bare
  refine ⟨raw, _, line, made.symm, ?_⟩
  rw [map_bare_parse, Placing.take_nodes]
  exact Placing.follows_after _

/-- A node before position `i`, without its children, is a node of the tree. -/
theorem exists_of_getElem?_before {i p : Nat} {m : Node}
    (found : (((parse options text).nodes.map Node.bare).take i)[p]? = some m) :
    ∃ n, (parse options text).nodes[p]? = some n ∧ n.bare = m := by
  rw [List.getElem?_take] at found
  split at found
  · rwa [List.getElem?_map, Option.map_eq_some_iff] at found
  · cases found

/-- Every line is read under the kind that its parent has in the finished tree. -/
theorem parse_line (found : (parse options text).nodes[i]? = some n) :
    ∃ raw, (sourceLines text)[i]? = some raw ∧ n.raw = raw ∧ n.number = i + 1 ∧
      n.toLine = Line.read options ((parse options text).parentKind n) (readable (i + 1) raw) := by
  obtain ⟨raw, s, at_i, made, follows⟩ := parse_node found
  have parent := Placing.parent_node options s i raw
  have line := Placing.toLine_node options s i raw
  rw [← made] at parent line
  have parent : n.parent = (s.parentOf n.depth n.isBlank).map (·.id) := parent
  have kind : (parse options text).parentKind n = (s.parentOf n.depth n.isBlank).map (·.kind) := by
    rw [Tree.parentKind, parent]
    cases block : s.parentOf n.depth n.isBlank with
    | none => rfl
    | some b =>
      obtain ⟨m, before, same⟩ := follows.parentOf_standing _ _ block
      obtain ⟨m', at_b, rfl⟩ := exists_of_getElem?_before before
      rw [Option.map_some, Option.bind_some, Tree.get?, at_b, same]
      rfl
  rw [kind]
  exact ⟨raw, at_i, congrArg Node.raw made, congrArg Node.number made, line⟩

theorem length_parse (options : ParseOptions) (text : Text) :
    (parse options text).nodes.length = (sourceLines text).length := by
  rw [← List.length_map Node.bare, map_bare_parse, Placing.length_nodes]

/-- The lines of a script as they are read. -/
def readLines (text : Text) : List Text :=
  (sourceLines text).mapIdx fun i raw => readable (i + 1) raw

theorem length_readLines (options : ParseOptions) (text : Text) :
    (readLines text).length = (parse options text).nodes.length := by
  rw [length_parse, readLines, List.length_mapIdx]

/-- The depth of a line, as the sum of the widths of its leading spaces and tabs. -/
def lineDepth (options : ParseOptions) (line : Text) : Nat :=
  min depthLimit (indentWidth options.tabWidth line)

/-- A node is blank when its line is, and as deep. -/
theorem parse_shape {line : Text} (found : (parse options text).nodes[i]? = some n)
    (read : (readLines text)[i]? = some line) :
    n.isBlank = Text.allBlank line ∧ n.depth = lineDepth options line := by
  obtain ⟨raw, s, at_i, made, -⟩ := parse_node found
  rw [readLines, List.getElem?_mapIdx, at_i] at read
  cases read
  constructor
  · calc n.isBlank = n.bare.isBlank := rfl
      _ = Text.allBlank (readable (i + 1) raw) := by rw [made, Placing.isBlank_node, isBlankLine_eq]
  · calc n.depth = n.bare.depth := rfl
      _ = lineDepth options (readable (i + 1) raw) := by rw [made]; exact depthOf_eq ..

/-- Where the last node with a property is that its line shows. -/
theorem exists_lastWhere?_iff {P : Text → Prop} {Q : Node → Bool}
    (agree : ∀ (m : Node) line, m.isBlank = Text.allBlank line → m.depth = lineDepth options line →
      (Q m = true ↔ P line)) (i p : Nat) :
    (∃ m, lastWhere? Q (((parse options text).nodes.map Node.bare).take i) = some (p, m)) ↔
      LastBefore P (readLines text) i p := by
  refine lastWhere?_take_iff ?_ (fun j m line at_j read => ?_) i p
  · rw [List.length_map, length_readLines options]
  · rw [List.getElem?_map] at at_j
    obtain ⟨n, found, rfl⟩ := Option.map_eq_some_iff.mp at_j
    obtain ⟨blank, depth⟩ := parse_shape found read
    exact agree n.bare line blank depth

/-- A node with content belongs to the last node with content that is less deep. -/
theorem parse_parent_of_content (found : (parse options text).nodes[i]? = some n) (content : n.isBlank = false) :
    n.parent = (lastWhere? (fun m => !m.isBlank && decide (m.depth < n.depth))
      (((parse options text).nodes.map Node.bare).take i)).map (·.1) := by
  obtain ⟨raw, s, -, made, follows⟩ := parse_node found
  have parent := Placing.parent_node options s i raw
  rw [← made] at parent
  calc n.parent = (s.parentOf n.depth n.isBlank).map (·.id) := parent
    _ = (s.enclosing n.depth).head?.map (·.id) := by rw [content]; rfl
    _ = _ := by rw [follows.nearest, Option.map_map]; rfl

/-- A blank node belongs to what the last node with content belongs to. -/
theorem parse_parent_of_blank (found : (parse options text).nodes[i]? = some n) (blank : n.isBlank = true) :
    n.parent = (lastWhere? (!·.isBlank)
      (((parse options text).nodes.map Node.bare).take i)).bind (·.2.parent) := by
  obtain ⟨raw, s, -, made, follows⟩ := parse_node found
  have parent := Placing.parent_node options s i raw
  rw [← made] at parent
  calc n.parent = (s.parentOf n.depth n.isBlank).map (·.id) := parent
    _ = s.beside.map (·.id) := by rw [blank]; rfl
    _ = _ := follows.beside

end

end ScriptAtlas
