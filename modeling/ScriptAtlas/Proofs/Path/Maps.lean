import Mathlib.Data.List.Forall2
import ScriptAtlas.Path.Map

/-!
Maps from paths as their readers see them. A path is found exactly where an
entry has its components (`get?_eq_some_iff`), and two maps are the same exactly
if every path finds the same value in both (`same_iff`), although they may spell
their paths differently. A map whose values are taken through a function keeps
its paths as they are spelled (`mapValues`).
-/
namespace ScriptAtlas.PathMap

variable {α : Type}

/-! ### Entries and look-ups -/

theorem get?_of_mem {m : PathMap α} {p q : Path} {a : α} (member : (q, a) ∈ m.entries)
    (same : q.same p = true) : m.get? p = some a := by
  obtain ⟨before, after, split⟩ := List.append_of_mem member
  have apart := m.apart
  rw [split, List.pairwise_append] at apart
  have missed : before.find? (·.1.same p) = none := by
    refine List.find?_eq_none.mpr fun e earlier => ?_
    rw [Path.same_comm, ← Path.same_congr same, Path.same_comm, apart.2.2 e earlier (q, a) (by simp)]
    exact Bool.false_ne_true
  simp [get?, split, List.find?_append, missed, same]

/-- A path finds the value of the entry that has its components, and nothing else. -/
theorem get?_eq_some_iff {m : PathMap α} {p : Path} {a : α} :
    m.get? p = some a ↔ ∃ q, (q, a) ∈ m.entries ∧ q.components = p.components := by
  constructor
  · intro found
    obtain ⟨e, at_e, rfl⟩ := Option.map_eq_some_iff.mp found
    have same := List.find?_some (p := fun e : Path × α => e.1.same p) at_e
    exact ⟨e.1, List.mem_of_find?_eq_some at_e, Path.same_iff.mp same⟩
  · rintro ⟨q, member, same⟩
    exact get?_of_mem member (Path.same_iff.mpr same)

theorem isSome_get?_iff {m : PathMap α} {p : Path} :
    (m.get? p).isSome = true ↔ ∃ q ∈ m.paths, q.components = p.components := by
  rw [Option.isSome_iff_exists]
  constructor
  · rintro ⟨a, found⟩
    obtain ⟨q, member, same⟩ := get?_eq_some_iff.mp found
    exact ⟨q, List.mem_map_of_mem member, same⟩
  · rintro ⟨q, listed, same⟩
    obtain ⟨e, member, rfl⟩ := List.mem_map.mp listed
    exact ⟨e.2, get?_eq_some_iff.mpr ⟨e.1, member, same⟩⟩

theorem contains_iff {m : PathMap α} {p : Path} :
    m.contains p = true ↔ ∃ q ∈ m.paths, q.components = p.components := by
  simp [contains, paths, Path.same_iff]

/-- The paths of a map are in strictly increasing order, so that none is listed twice. -/
theorem paths_sorted (m : PathMap α) : m.paths.Pairwise (fun p q => p.order q = .lt) :=
  List.pairwise_map.mpr m.sorted

/-! ### Maps with the same look-ups -/

section
variable {e f : Path × α} {rest others : List (Path × α)} {p : Path}

theorem get?_cons (sorted : (e :: rest).Pairwise fun e f => e.1.order f.1 = .lt) (p : Path) :
    get? ⟨e :: rest, sorted⟩ p = if e.1.same p then some e.2 else get? ⟨rest, sorted.tail⟩ p := by
  cases own : e.1.same p <;> simp [get?, own]

/-- A path that comes before all entries is not found. -/
theorem get?_of_lt {sorted : rest.Pairwise fun e f => e.1.order f.1 = .lt}
    (before : ∀ e ∈ rest, p.order e.1 = .lt) : get? ⟨rest, sorted⟩ p = none := by
  refine Option.eq_none_iff_forall_ne_some.mpr fun a found => ?_
  obtain ⟨q, member, same⟩ := get?_eq_some_iff.mp found
  have less := before _ member
  rw [Path.order_eq_iff.mpr (Path.same_iff.mpr same.symm)] at less
  cases less

/-- A path that comes before the first entry comes before all of them. -/
theorem get?_cons_of_lt (sorted : (f :: rest).Pairwise fun e f => e.1.order f.1 = .lt)
    (less : p.order f.1 = .lt) : get? ⟨f :: rest, sorted⟩ p = none := by
  refine get?_of_lt fun e member => ?_
  rcases List.mem_cons.mp member with rfl | later
  · exact less
  · exact Std.TransCmp.lt_trans less (List.rel_of_pairwise_cons sorted later)

/-- The path of the first entry is not found among the others. -/
theorem get?_tail_of_same (sorted : (e :: rest).Pairwise fun e f => e.1.order f.1 = .lt)
    (own : e.1.same p = true) : get? ⟨rest, sorted.tail⟩ p = none := by
  refine get?_of_lt fun f later => ?_
  have equal := Std.OrientedCmp.eq_symm (Path.order_eq_iff.mpr own)
  exact Std.TransCmp.lt_of_eq_of_lt equal (List.rel_of_pairwise_cons sorted later)

/-- The smaller of two different first paths would be found on one side only. -/
theorem same_heads (sortedLeft : (e :: rest).Pairwise fun e f => e.1.order f.1 = .lt)
    (sortedRight : (f :: others).Pairwise fun e f => e.1.order f.1 = .lt)
    (equal : ∀ p, get? ⟨e :: rest, sortedLeft⟩ p = get? ⟨f :: others, sortedRight⟩ p) :
    e.1.same f.1 = true ∧ e.2 = f.2 := by
  have first : e.1.same f.1 = true := by
    rw [← Path.order_eq_iff]
    cases at_front : e.1.order f.1 with
    | eq => rfl
    | lt =>
      have found := equal e.1
      rw [get?_cons_of_lt sortedRight at_front] at found
      simp [get?_cons] at found
    | gt =>
      have found := equal f.1
      rw [get?_cons_of_lt sortedLeft (Std.OrientedCmp.lt_of_gt at_front)] at found
      simp [get?_cons] at found
  refine ⟨first, ?_⟩
  have found := equal e.1
  simpa [get?_cons, Path.same_comm f.1, first] using found

end

private theorem forall₂_of_get?_eq : ∀ {left right : List (Path × α)}
    (sortedLeft : left.Pairwise fun e f => e.1.order f.1 = .lt)
    (sortedRight : right.Pairwise fun e f => e.1.order f.1 = .lt),
    (∀ p, get? ⟨left, sortedLeft⟩ p = get? ⟨right, sortedRight⟩ p) →
      List.Forall₂ (fun e f => e.1.same f.1 = true ∧ e.2 = f.2) left right := by
  intro left
  induction left with
  | nil =>
    intro right sortedLeft sortedRight equal
    cases right with
    | nil => exact .nil
    | cons f others =>
      have found := equal f.1
      simp [get?] at found
  | cons e rest ih =>
    intro right sortedLeft sortedRight equal
    cases right with
    | nil =>
      have found := equal e.1
      simp [get?] at found
    | cons f others =>
      have heads := same_heads sortedLeft sortedRight equal
      refine .cons heads (ih sortedLeft.tail sortedRight.tail fun p => ?_)
      have at_p := equal p
      by_cases own : e.1.same p = true
      · have own' : f.1.same p = true := Path.same_congr heads.1 p ▸ own
        rw [get?_tail_of_same sortedLeft own, get?_tail_of_same sortedRight own']
      · have other : ¬f.1.same p = true := Path.same_congr heads.1 p ▸ own
        rwa [get?_cons, get?_cons, if_neg own, if_neg other] at at_p

/-- Two maps are the same when their entries are, one by one. -/
theorem same_iff_forall₂ [BEq α] [LawfulBEq α] {m n : PathMap α} :
    m.same n = true ↔
      List.Forall₂ (fun e f => e.1.same f.1 = true ∧ e.2 = f.2) m.entries n.entries := by
  rw [same, Bool.and_eq_true, beq_iff_eq, List.all_eq_true, List.forall₂_iff_zip]
  simp

/-- Two maps are the same exactly if every path finds the same value in both. -/
theorem same_iff [BEq α] [LawfulBEq α] {m n : PathMap α} :
    m.same n = true ↔ ∀ p, m.get? p = n.get? p := by
  rw [same_iff_forall₂]
  refine ⟨fun alike p => ?_, forall₂_of_get?_eq m.sorted n.sorted⟩
  rw [get?, get?]
  generalize m.entries = left, n.entries = right at alike
  induction alike with
  | nil => rfl
  | @cons e f _ _ heads _ ih =>
    have first := Path.same_congr heads.1 p
    cases own : f.1.same p <;> simp [first, own, heads.2, ih]

/-! ### The values of a map -/

section
variable {β : Type} (f : α → β)

attribute [ext] PathMap

/-- The map with the same paths and the values that a function makes of the old ones. -/
def mapValues (m : PathMap α) : PathMap β :=
  ⟨m.entries.map fun e => (e.1, f e.2), List.pairwise_map.mpr m.sorted⟩

@[simp] theorem paths_mapValues (m : PathMap α) : (m.mapValues f).paths = m.paths := by
  simp [paths, mapValues]

@[simp] theorem get?_mapValues (m : PathMap α) (p : Path) :
    (m.mapValues f).get? p = (m.get? p).map f := by
  simp [get?, mapValues, List.find?_map, Function.comp_def]

theorem mapValues_insert (m : PathMap α) (p : Path) (a : α) :
    (m.insert p a).mapValues f = (m.mapValues f).insert p (f a) := by
  ext1
  show (insertInto p a m.entries).map _ = insertInto p (f a) (m.entries.map _)
  generalize m.entries = entries
  induction entries with
  | nil => rfl
  | cons e rest ih =>
    simp only [insertInto, List.map_cons]
    split <;> simp [ih]

theorem mapValues_erase (m : PathMap α) (p : Path) :
    (m.erase p).mapValues f = (m.mapValues f).erase p := by
  ext1
  simp [mapValues, erase, List.filter_map, Function.comp_def]

end

/-- An insertion adds at most one entry. -/
theorem length_insert_le (m : PathMap α) (p : Path) (a : α) :
    (m.insert p a).entries.length ≤ m.entries.length + 1 := by
  show (insertInto p a m.entries).length ≤ m.entries.length + 1
  induction m.entries with
  | nil => simp [insertInto]
  | cons e rest ih =>
    simp only [insertInto]
    split
    · simp
    · simp
    · simpa using ih

/-! ### Entries after an insertion -/

private theorem mem_insertInto_iff {p : Path} {a : α} {entries : List (Path × α)}
    (sorted : entries.Pairwise fun e f => e.1.order f.1 = .lt)
    (spelled : ∀ e ∈ entries, e.1.same p = true → e.1 = p) {e : Path × α} :
    e ∈ insertInto p a entries ↔ e = (p, a) ∨ e ∈ entries ∧ e.1.same p = false := by
  have apart {q r : Path} (less : q.order r = .lt) : r.same q = false := by
    rw [Bool.eq_false_iff, Path.same_comm]
    intro same
    rw [Path.order_eq_iff.mpr same] at less
    cases less
  induction entries with
  | nil => simp [insertInto]
  | cons f rest ih =>
    obtain ⟨q, b⟩ := f
    obtain ⟨first, tail⟩ := List.pairwise_cons.mp sorted
    obtain ⟨spelledFirst, spelledRest⟩ := List.forall_mem_cons.mp spelled
    rw [insertInto]
    split
    · rename_i less
      have others : ∀ f ∈ (q, b) :: rest, f.1.same p = false :=
        List.forall_mem_cons.mpr ⟨apart less, fun f later => apart (Std.TransCmp.lt_trans less (first f later))⟩
      rw [List.mem_cons]
      exact or_congr_right ⟨fun member => ⟨member, others e member⟩, And.left⟩
    · rename_i equal
      have same : q.same p = true := by
        rw [Path.same_comm]
        exact Path.order_eq_iff.mp equal
      obtain rfl : q = p := spelledFirst same
      rw [List.mem_cons, List.mem_cons]
      refine or_congr_right ⟨fun later => ⟨.inr later, apart (first e later)⟩, ?_⟩
      rintro ⟨rfl | later, other⟩
      · rw [same] at other
        cases other
      · exact later
    · rename_i greater
      have other : q.same p = false := by
        rw [Path.same_comm]
        exact apart (Std.OrientedCmp.lt_of_gt greater)
      have inside : e ∈ insertInto p a rest ↔ e = (p, a) ∨ e ∈ rest ∧ e.1.same p = false := ih tail spelledRest
      rw [List.mem_cons, List.mem_cons, inside]
      constructor
      · rintro (rfl | rfl | ⟨later, fresh⟩)
        · exact .inr ⟨.inl rfl, other⟩
        · exact .inl rfl
        · exact .inr ⟨.inr later, fresh⟩
      · rintro (rfl | ⟨rfl | later, fresh⟩)
        · exact .inr (.inl rfl)
        · exact .inl rfl
        · exact .inr (.inr ⟨later, fresh⟩)

/-- Where a path has been spelled in one way only, an insertion leaves the new
    entry and those of other paths. -/
theorem mem_insert_iff {m : PathMap α} {p : Path} {a : α} (spelled : ∀ e ∈ m.entries, e.1.same p = true → e.1 = p)
    {e : Path × α} : e ∈ (m.insert p a).entries ↔ e = (p, a) ∨ e ∈ m.entries ∧ e.1.same p = false :=
  mem_insertInto_iff m.sorted spelled

end ScriptAtlas.PathMap
