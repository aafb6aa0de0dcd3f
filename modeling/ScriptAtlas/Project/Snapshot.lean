import ScriptAtlas.Symbol.Index

/-!
A snapshot of a project: the trees of its scripts and the index of their
symbols. A pass takes a batch of changes, at most one for each file, and makes
the next snapshot from them; a snapshot itself never changes.
-/
namespace ScriptAtlas

/-- What happens to a file of a project. -/
inductive Change
  | update (text : Text)
  | remove
deriving DecidableEq, Repr

/-- The scripts of a project at one time. -/
structure Snapshot where
  /-- The number of passes that led to the snapshot. -/
  generation : Nat := 0
  trees : PathMap Tree := {}
  index : SymbolIndex := {}
deriving Repr

namespace Snapshot

def drop (s : Snapshot) (file : Path) : Snapshot :=
  { s with trees := s.trees.erase file, index := s.index.remove file }

def put (options : IndexOptions) (s : Snapshot) (file : Path) (t : Tree) : Snapshot :=
  { s with
    trees := s.trees.insert file t
    index := if options.crossAutoComplete then s.index.updateTree file t else s.index }

/-- The snapshot without the file of an entry that removes it. -/
def applyRemoval (s : Snapshot) (e : Path × Change) : Snapshot :=
  match e.2 with
  | .remove => s.drop e.1
  | .update _ => s

/-- The snapshot with the script of an entry that updates it. -/
def applyUpdate (options : IndexOptions) (s : Snapshot) (e : Path × Change) : Snapshot :=
  match e.2 with
  | .remove => s
  | .update text => s.put options e.1 (parse options.parse text)

/-- The snapshot after one more pass: first the removals of the batch, then its
    updates, each in the order of paths. -/
def advance (options : IndexOptions) (s : Snapshot) (batch : PathMap Change) : Snapshot :=
  let remaining := batch.entries.foldl applyRemoval s
  let changed := batch.entries.foldl (applyUpdate options) remaining
  { changed with generation := s.generation + 1 }

/-! ### What a pass does to one file -/

theorem trees_drop (s : Snapshot) (file q : Path) :
    (s.drop file).trees.get? q = if file.same q then none else s.trees.get? q :=
  PathMap.get?_erase ..

theorem index_drop (s : Snapshot) (file q : Path) :
    (s.drop file).index.files.get? q = if file.same q then none else s.index.files.get? q :=
  PathMap.get?_erase ..

theorem trees_put (options : IndexOptions) (s : Snapshot) (file : Path) (t : Tree) (q : Path) :
    (s.put options file t).trees.get? q = if file.same q then some t else s.trees.get? q :=
  PathMap.get?_insert ..

theorem index_put (options : IndexOptions) (s : Snapshot) (file : Path) (t : Tree) (q : Path) :
    (s.put options file t).index.files.get? q =
      if options.crossAutoComplete && file.same q then some t.symbols
      else s.index.files.get? q := by
  rw [put]
  cases options.crossAutoComplete with
  | true => exact PathMap.get?_insert ..
  | false => rfl

section
variable {ω : Type} (options : IndexOptions) (look : Snapshot → ω) (gone : ω → ω)
  (renewed : Text → ω → ω) (file : Path)

/-- What is seen of one file after a pass: removals and updates of other files
    do not count, and a file of the batch is removed or updated once. -/
theorem look_advance
    (dropped : ∀ s q, look (s.drop q) = if q.same file then gone (look s) else look s)
    (updated : ∀ s q text, look (s.put options q (parse options.parse text)) =
      if q.same file then renewed text (look s) else look s)
    (counted : ∀ s n, look { s with generation := n } = look s) (s : Snapshot) (batch : PathMap Change) :
    look (s.advance options batch) =
      match batch.get? file with
      | some (.update text) => renewed text (look s)
      | some .remove => gone (look s)
      | none => look s := by
  have removals := PathMap.look_foldl look applyRemoval
    (fun c seen => match c with | .remove => gone seen | .update _ => seen) file
    (by rintro s ⟨q, _ | _⟩ own <;> simp_all [applyRemoval])
    (by rintro s ⟨q, _ | _⟩ other <;> simp_all [applyRemoval]) batch s
  have updates := PathMap.look_foldl look (applyUpdate options)
    (fun c seen => match c with | .remove => seen | .update text => renewed text seen) file
    (by rintro s ⟨q, _ | _⟩ own <;> simp_all [applyUpdate])
    (by rintro s ⟨q, _ | _⟩ other <;> simp_all [applyUpdate]) batch (batch.entries.foldl applyRemoval s)
  rw [advance, counted, updates, removals]
  rcases batch.get? file with _ | _ | _ <;> rfl

end

/-- After a pass a file of the batch has the tree of its new text, or none if
    it was removed; every other file has the tree that it had. -/
theorem trees_advance (options : IndexOptions) (s : Snapshot) (batch : PathMap Change) (file : Path) :
    (s.advance options batch).trees.get? file =
      match batch.get? file with
      | some (.update text) => some (parse options.parse text)
      | some .remove => none
      | none => s.trees.get? file :=
  look_advance options (·.trees.get? file) (fun _ => none)
    (fun text _ => some (parse options.parse text)) file (fun s q => trees_drop s q file)
    (fun s q text => trees_put options s q (parse options.parse text) file) (fun _ _ => rfl) s batch

/-- After a pass a file of the batch has the symbols of its new text in the
    index, if the project keeps one, or none if it was removed. -/
theorem index_advance (options : IndexOptions) (s : Snapshot) (batch : PathMap Change) (file : Path) :
    (s.advance options batch).index.files.get? file =
      match batch.get? file with
      | some (.update text) =>
        if options.crossAutoComplete then some (parse options.parse text).symbols
        else s.index.files.get? file
      | some .remove => none
      | none => s.index.files.get? file :=
  look_advance options (·.index.files.get? file) (fun _ => none)
    (fun text seen => if options.crossAutoComplete then some (parse options.parse text).symbols else seen)
    file (fun s q => index_drop s q file)
    (fun s q text => by
      rw [index_put]
      cases options.crossAutoComplete <;> simp)
    (fun _ _ => rfl) s batch

end Snapshot
end ScriptAtlas
