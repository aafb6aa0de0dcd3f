import ScriptAtlas.Path.Basic

/-!
Maps from paths. The entries stand in the order of paths, one for each path.
A new value for a path that is already there keeps the spelling that the path
had.
-/
namespace ScriptAtlas

/-- Entries by path, strictly increasing in the order of paths. -/
structure PathMap (α : Type) where
  entries : List (Path × α)
  sorted : entries.Pairwise (fun e f => e.1.order f.1 = .lt)
deriving Repr

instance {α : Type} : EmptyCollection (PathMap α) := ⟨[], .nil⟩

namespace PathMap
variable {α : Type}

/-- Puts an entry in its place, or replaces the value of the entry that is there. -/
def insertInto (p : Path) (a : α) : List (Path × α) → List (Path × α)
  | [] => [(p, a)]
  | (q, b) :: rest =>
    match p.order q with
    | .lt => (p, a) :: (q, b) :: rest
    | .eq => (q, a) :: rest
    | .gt => (q, b) :: insertInto p a rest

theorem path_of_mem_insertInto {p : Path} {a : α} {entries : List (Path × α)} {e : Path × α}
    (member : e ∈ insertInto p a entries) : e.1 = p ∨ ∃ f ∈ entries, f.1 = e.1 := by
  induction entries with
  | nil => exact .inl (by simpa [insertInto] using congrArg Prod.fst (List.mem_singleton.mp member))
  | cons f rest ih =>
    obtain ⟨q, b⟩ := f
    rw [insertInto] at member
    split at member
    · rcases List.mem_cons.mp member with rfl | old
      · exact .inl rfl
      · exact .inr ⟨e, old, rfl⟩
    · rcases List.mem_cons.mp member with rfl | old
      · exact .inr ⟨(q, b), by simp, rfl⟩
      · exact .inr ⟨e, List.mem_cons_of_mem _ old, rfl⟩
    · rcases List.mem_cons.mp member with rfl | later
      · exact .inr ⟨(q, b), by simp, rfl⟩
      · rcases ih later with new | ⟨f, old, same⟩
        · exact .inl new
        · exact .inr ⟨f, List.mem_cons_of_mem _ old, same⟩

theorem sorted_insertInto (p : Path) (a : α) {entries : List (Path × α)}
    (sorted : entries.Pairwise (fun e f => e.1.order f.1 = .lt)) :
    (insertInto p a entries).Pairwise (fun e f => e.1.order f.1 = .lt) := by
  induction entries with
  | nil => exact List.pairwise_singleton _ _
  | cons f rest ih =>
    obtain ⟨q, b⟩ := f
    obtain ⟨first, tail⟩ := List.pairwise_cons.mp sorted
    rw [insertInto]
    split
    · rename_i less
      refine List.pairwise_cons.mpr ⟨fun e member => ?_, sorted⟩
      rcases List.mem_cons.mp member with rfl | later
      · exact less
      · exact Std.TransCmp.lt_trans less (first e later)
    · exact List.pairwise_cons.mpr ⟨first, tail⟩
    · rename_i greater
      refine List.pairwise_cons.mpr ⟨fun e member => ?_, ih tail⟩
      rcases path_of_mem_insertInto member with new | ⟨f, old, same⟩
      · exact new ▸ Std.OrientedCmp.lt_of_gt greater
      · exact same ▸ first f old

def insert (m : PathMap α) (p : Path) (a : α) : PathMap α :=
  ⟨insertInto p a m.entries, sorted_insertInto p a m.sorted⟩

def erase (m : PathMap α) (p : Path) : PathMap α :=
  ⟨m.entries.filter (!·.1.same p), m.sorted.filter _⟩

def get? (m : PathMap α) (p : Path) : Option α := (m.entries.find? (·.1.same p)).map (·.2)

def contains (m : PathMap α) (p : Path) : Bool := m.entries.any (·.1.same p)

/-- The paths, in order and as they are spelled in the map. -/
def paths (m : PathMap α) : List Path := m.entries.map (·.1)

def isEmpty (m : PathMap α) : Bool := m.entries.isEmpty

/-- The map of a list of entries; a later entry replaces an earlier one. -/
def ofList (entries : List (Path × α)) : PathMap α :=
  entries.foldl (fun m (p, a) => m.insert p a) {}

/-- Whether two maps have the same values for the same paths, however spelled. -/
def same [BEq α] (m n : PathMap α) : Bool :=
  m.entries.length == n.entries.length &&
    (m.entries.zip n.entries).all fun ((p, a), (q, b)) => p.same q && a == b

/-! ### What is found after a change -/

@[simp] theorem get?_empty (p : Path) : ({} : PathMap α).get? p = none := rfl

theorem find?_insertInto (p : Path) (a : α) (entries : List (Path × α)) (q : Path) :
    ((insertInto p a entries).find? (·.1.same q)).map (·.2) =
      if p.same q then some a else (entries.find? (·.1.same q)).map (·.2) := by
  induction entries with
  | nil => cases found : p.same q <;> simp [insertInto, found]
  | cons f rest ih =>
    obtain ⟨r, b⟩ := f
    rw [insertInto]
    split
    · cases found : p.same q <;> simp [found]
    · rename_i equal
      have spelled : r.same q = p.same q :=
        (Path.same_congr (Path.order_eq_iff.mp equal) q).symm
      cases found : p.same q <;> simp [spelled, found]
    · rename_i greater
      cases found : r.same q with
      | true =>
        have apart : p.same q = false := by
          rw [Path.same_comm, ← Path.same_congr found, Path.same_comm, Bool.eq_false_iff]
          intro same
          rw [Path.order_eq_iff.mpr same] at greater
          cases greater
        simp [found, apart]
      | false => simpa [found] using ih

/-- After an insertion the path has the new value; every other path has what it had. -/
theorem get?_insert (m : PathMap α) (p : Path) (a : α) (q : Path) :
    (m.insert p a).get? q = if p.same q then some a else m.get? q :=
  find?_insertInto p a m.entries q

/-- After an erasure the path has no value; every other path has what it had. -/
theorem get?_erase (m : PathMap α) (p q : Path) :
    (m.erase p).get? q = if p.same q then none else m.get? q := by
  simp only [get?, erase, List.find?_filter]
  cases found : p.same q with
  | true =>
    have none : m.entries.find? (fun e => !e.1.same p && e.1.same q) = none := by
      refine List.find?_eq_none.mpr fun e _ => ?_
      rw [Path.same_comm e.1 q, ← Path.same_congr found, Path.same_comm p]
      cases e.1.same p <;> simp
    simp [none]
  | false =>
    have all : (fun e : Path × α => !e.1.same p && e.1.same q) = (·.1.same q) := by
      funext e
      cases at_q : e.1.same q with
      | true => rw [Path.same_congr at_q p, Path.same_comm q, found]; rfl
      | false => rw [Bool.and_false]
    simp [all]

/-- No two entries are of the same path. -/
theorem apart (m : PathMap α) : m.entries.Pairwise (fun e f => e.1.same f.1 = false) :=
  m.sorted.imp fun {e f} less => by
    rw [Bool.eq_false_iff]
    intro same
    rw [Path.order_eq_iff.mpr same] at less
    cases less

section
variable {σ ω : Type} (look : σ → ω) (step : σ → Path × α → σ) (effect : α → ω → ω) (file : Path)

private theorem look_foldl_entries (own : ∀ s e, e.1.same file = true → look (step s e) = effect e.2 (look s))
    (other : ∀ s e, e.1.same file = false → look (step s e) = look s) :
    ∀ (entries : List (Path × α)) (s : σ), entries.Pairwise (fun e f => e.1.same f.1 = false) →
      look (entries.foldl step s) =
        (((entries.find? (·.1.same file)).map (·.2)).elim id effect) (look s) := by
  intro entries
  induction entries with
  | nil => intro s _; rfl
  | cons e rest ih =>
    intro s distinct
    obtain ⟨first, tail⟩ := List.pairwise_cons.mp distinct
    rw [List.foldl_cons, ih _ tail]
    cases found : e.1.same file with
    | true =>
      have none : rest.find? (·.1.same file) = none := by
        refine List.find?_eq_none.mpr fun f member => ?_
        rw [Path.same_comm, ← Path.same_congr found, first f member]
        exact Bool.false_ne_true
      simp [none, found, own s e found]
    | false => simp [found, other s e found]

/-- What is seen of one file after the entries of a map were worked off one by
    one: only the entry of the file counts, and it counts once. -/
theorem look_foldl (own : ∀ s e, e.1.same file = true → look (step s e) = effect e.2 (look s))
    (other : ∀ s e, e.1.same file = false → look (step s e) = look s) (m : PathMap α) (s : σ) :
    look (m.entries.foldl step s) = ((m.get? file).elim id effect) (look s) :=
  look_foldl_entries look step effect file own other m.entries s m.apart

end

end PathMap
end ScriptAtlas
