import Mathlib.Data.List.Induction
import ScriptAtlas.Project.Snapshot
import ScriptAtlas.Proofs.Path.Maps

/-!
An index that is edited file by file is the index of the scripts that are left.
It has the symbols of the texts that the changes leave (`editAll_empty`), and a
text is left for a file exactly if the last change of the file brought it in
(`get?_texts`). So an index that was built from some scripts and then edited is
the one that is built from the final scripts at once, in whatever order they
are listed (`editAll_same_build`).
-/
namespace ScriptAtlas

/-! ### What changes leave -/

/-- The text that a file has after a change. -/
def Change.text? : Change → Option Text
  | .update text => some text
  | .remove => none

/-- The text that a file has after changes, however it is spelled in them. -/
def lastText? (history : List (Path × Change)) (file : Path) : Option Text :=
  (history.reverse.find? fun e => e.1.components = file.components).bind (·.2.text?)

/-- Scripts as the changes that bring them in. -/
def written (scripts : List (Path × Text)) : List (Path × Change) :=
  scripts.map fun e => (e.1, .update e.2)

/-- The scripts that changes leave, in some order: no two are of the same path, and
    a file has a text among them if it has this text after the changes. -/
structure Leaves (history : List (Path × Change)) (final : List (Path × Text)) : Prop where
  apart : final.Pairwise fun e f => e.1.components ≠ f.1.components
  texts : ∀ file text, (∃ e ∈ final, e.1.components = file.components ∧ e.2 = text) ↔
    lastText? history file = some text

/-- The last of several changes decides about its own file and no other. -/
theorem lastText?_concat (history : List (Path × Change)) (e : Path × Change) (file : Path) :
    lastText? (history ++ [e]) file =
      if e.1.same file then e.2.text? else lastText? history file := by
  rw [lastText?, List.reverse_append]
  by_cases own : e.1.components = file.components
  · simp [own, Path.same_iff.mpr own]
  · have other : ¬e.1.same file = true := fun same => own (Path.same_iff.mp same)
    simp [own, other, lastText?]

/-- Scripts of pairwise different paths are what is left when they are brought in. -/
theorem leaves_written {final : List (Path × Text)}
    (apart : final.Pairwise fun e f => e.1.components ≠ f.1.components) : Leaves (written final) final := by
  refine ⟨apart, ?_⟩
  induction final using List.reverseRecOn with
  | nil => simp [written, lastText?]
  | append_singleton final e ih =>
    intro file text
    obtain ⟨before, -, across⟩ := List.pairwise_append.mp apart
    have last : written (final ++ [e]) = written final ++ [(e.1, .update e.2)] := List.map_append
    rw [last, lastText?_concat]
    by_cases own : e.1.same file = true
    · rw [if_pos own, Change.text?, Option.some_inj]
      constructor
      · rintro ⟨f, member, same, rfl⟩
        rcases List.mem_append.mp member with earlier | at_end
        · exact absurd (same.trans (Path.same_iff.mp own).symm) (across f earlier e (by simp))
        · rw [List.mem_singleton.mp at_end]
      · rintro rfl
        exact ⟨e, by simp, Path.same_iff.mp own, rfl⟩
    · have other : e.1.components ≠ file.components := fun same => own (Path.same_iff.mpr same)
      rw [if_neg own, ← ih before]
      simp [other]

/-- The texts that changes leave, by file. -/
def texts (history : List (Path × Change)) : PathMap Text :=
  history.foldl (fun m e =>
    match e.2 with
    | .update text => m.insert e.1 text
    | .remove => m.erase e.1) {}

theorem texts_concat (history : List (Path × Change)) (e : Path × Change) :
    texts (history ++ [e]) =
      match e.2 with
      | .update text => (texts history).insert e.1 text
      | .remove => (texts history).erase e.1 := by
  rw [texts, List.foldl_append]
  rfl

theorem get?_texts (history : List (Path × Change)) (file : Path) :
    (texts history).get? file = lastText? history file := by
  induction history using List.reverseRecOn with
  | nil => rfl
  | append_singleton history e ih =>
    obtain ⟨q, c⟩ := e
    rw [texts_concat, lastText?_concat, ← ih]
    cases c with
    | update text => exact PathMap.get?_insert ..
    | remove => exact PathMap.get?_erase ..

theorem leaves_texts (history : List (Path × Change)) : Leaves history (texts history).entries := by
  constructor
  · refine (texts history).apart.imp fun {e f} apart same => ?_
    rw [Path.same_iff.mpr same] at apart
    cases apart
  · intro file text
    rw [← get?_texts, PathMap.get?_eq_some_iff]
    constructor
    · rintro ⟨e, member, same, rfl⟩
      exact ⟨e.1, member, same⟩
    · rintro ⟨q, member, same⟩
      exact ⟨(q, text), member, same, rfl⟩

/-- Scripts of pairwise different paths are what changes leave exactly if bringing
    them in leaves the same texts. -/
theorem leaves_iff {history : List (Path × Change)} {final : List (Path × Text)} :
    Leaves history final ↔
      (final.Pairwise fun e f => e.1.components ≠ f.1.components) ∧
        (texts (written final)).same (texts history) = true := by
  simp only [PathMap.same_iff, get?_texts]
  constructor
  · intro leaves
    refine ⟨leaves.apart, fun file => Option.ext fun text => ?_⟩
    rw [← leaves.texts, ← (leaves_written leaves.apart).texts]
  · rintro ⟨apart, equal⟩
    refine ⟨apart, fun file text => ?_⟩
    rw [← equal, (leaves_written apart).texts]

instance (history : List (Path × Change)) (final : List (Path × Text)) : Decidable (Leaves history final) :=
  decidable_of_iff _ leaves_iff.symm

namespace SymbolIndex

/-! ### Indexes and their changes -/

/-- The index after a change of a file. -/
def edit (options : ParseOptions) (x : SymbolIndex) (e : Path × Change) : SymbolIndex :=
  match e.2 with
  | .update text => x.update options e.1 text
  | .remove => (x.discard e.1).1

/-- The index after one change after the other. -/
def editAll (options : ParseOptions) (x : SymbolIndex) (edits : List (Path × Change)) : SymbolIndex :=
  edits.foldl (edit options) x

theorem build_eq_editAll (options : ParseOptions) (scripts : List (Path × Text)) :
    build options scripts = editAll options {} (written scripts) := by
  rw [editAll, written, List.foldl_map]
  rfl

theorem editAll_build (options : ParseOptions) (scripts : List (Path × Text)) (edits : List (Path × Change)) :
    editAll options (build options scripts) edits = editAll options {} (written scripts ++ edits) := by
  rw [build_eq_editAll, editAll, editAll, editAll, List.foldl_append]

/-- An index has the symbols of the texts that its changes leave. -/
theorem editAll_empty (options : ParseOptions) (history : List (Path × Change)) :
    (editAll options {} history).files =
      (texts history).mapValues fun text => (parse options text).symbols := by
  induction history using List.reverseRecOn with
  | nil => rfl
  | append_singleton history e ih =>
    obtain ⟨q, c⟩ := e
    rw [editAll, List.foldl_append, texts_concat]
    cases c with
    | update text =>
      rw [PathMap.mapValues_insert, ← ih]
      rfl
    | remove =>
      rw [PathMap.mapValues_erase, ← ih]
      rfl

/-- A file of an edited index has the symbols of its last text. -/
theorem files_editAll (options : ParseOptions) (history : List (Path × Change)) (file : Path) :
    (editAll options {} history).files.get? file =
      (lastText? history file).map fun text => (parse options text).symbols := by
  rw [editAll_empty, PathMap.get?_mapValues, get?_texts]

theorem mem_files_editAll (options : ParseOptions) (history : List (Path × Change)) (file : Path) :
    (∃ p ∈ (editAll options {} history).files.paths, p.components = file.components) ↔
      (lastText? history file).isSome = true := by
  rw [← PathMap.isSome_get?_iff, files_editAll, Option.isSome_map]

theorem same_build {options : ParseOptions} {history : List (Path × Change)} {final : List (Path × Text)}
    (leaves : Leaves history final) : (editAll options {} history).same (build options final) = true := by
  refine PathMap.same_iff.mpr fun file => ?_
  have texts := PathMap.same_iff.mp (leaves_iff.mp leaves).2 file
  rw [get?_texts, get?_texts] at texts
  rw [build_eq_editAll, files_editAll, files_editAll, texts]

/-- An index that was built from scripts and then edited is the one that is built
    from the scripts that are left, whatever their order. A file is in it exactly
    if its last change left it a text; taking a file out tells whether it was
    there; and the files stand in strictly increasing order, so that none is listed
    under two spellings. -/
theorem editAll_same_build (options : ParseOptions) (initial : List (Path × Text))
    (edits : List (Path × Change)) :
    let history := written initial ++ edits
    let x := editAll options (build options initial) edits
    (∀ final, Leaves history final → x.same (build options final) = true) ∧
    (∃ final, Leaves history final) ∧
    (∀ file, (∃ p ∈ x.files.paths, p.components = file.components) ↔
      (lastText? history file).isSome = true) ∧
    (∀ file, (x.discard file).2 = true ↔ ∃ p ∈ x.files.paths, p.components = file.components) ∧
    x.files.paths.Pairwise fun p q => p.order q = .lt := by
  intro history x
  have whole : x = editAll options {} history := editAll_build options initial edits
  refine ⟨?_, ⟨_, leaves_texts history⟩, ?_, ?_, x.files.paths_sorted⟩
  · intro final leaves
    rw [whole]
    exact same_build leaves
  · intro file
    rw [whole]
    exact mem_files_editAll options history file
  · intro file
    exact PathMap.contains_iff

/-- A script is overwritten under another spelling, a second one is taken out and
    brought in again, and the first comes back after its removal. -/
theorem editAll_same_build_respelled :
    let initial : List (Path × Text) := [(⟨"a/b".toList⟩, "on join:".toList), (⟨"c".toList⟩, "options:".toList)]
    let edits : List (Path × Change) := [(⟨"a//b".toList⟩, .update "on quit:".toList), (⟨"c/".toList⟩, .remove),
      (⟨"a/./b".toList⟩, .remove), (⟨"c".toList⟩, .update "command /c:".toList),
      (⟨"a/b/".toList⟩, .update "on chat:".toList)]
    (editAll {} (build {} initial) edits).same
      (build {} [(⟨"c".toList⟩, "command /c:".toList), (⟨"a/b".toList⟩, "on chat:".toList)]) = true := by
  intro initial edits
  exact (editAll_same_build {} initial edits).1 _ (by decide)

end SymbolIndex
end ScriptAtlas
