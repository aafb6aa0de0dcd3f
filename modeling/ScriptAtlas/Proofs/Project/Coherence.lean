import ScriptAtlas.Proofs.Path.Maps
import ScriptAtlas.Proofs.Project.LastWrite

/-!
Every snapshot that is ever current is coherent. Its index, where the project
keeps one, has the files and the symbols of exactly its trees; every tree is
made from a text that was enqueued for its file; and its generation counts the
passes so far, none of which is without a change of its own
(`run_coherent`). Trees and index are changed apart from each other in a pass,
so this is shown for every drop and every put (`Snapshot.Mirrored`) and carried
through whole passes and runs.
-/
namespace ScriptAtlas

/-! ### What has been enqueued -/

/-- Some step enqueues a change for a file, however the file is spelled there. -/
def Enqueued (steps : List Step) (file : Path) (c : Change) : Prop :=
  ∃ q, Step.enqueue q c ∈ steps ∧ q.components = file.components

def Step.isPublish : Step → Bool
  | .publish => true
  | _ => false

/-- The number of passes that steps publish. -/
def publishes (steps : List Step) : Nat := steps.countP Step.isPublish

/-- The number of changes that steps enqueue. -/
def enqueues (steps : List Step) : Nat := (steps.filterMap Step.enqueued?).length

theorem Enqueued.append {steps : List Step} {file : Path} {c : Change} (enqueued : Enqueued steps file c)
    (more : List Step) : Enqueued (steps ++ more) file c := by
  obtain ⟨q, member, same⟩ := enqueued
  exact ⟨q, List.mem_append_left more member, same⟩

theorem enqueued_last (steps : List Step) {q file : Path} (c : Change) (same : q.same file = true) :
    Enqueued (steps ++ [.enqueue q c]) file c :=
  ⟨q, by simp, Path.same_iff.mp same⟩

theorem publishes_append (steps more : List Step) :
    publishes (steps ++ more) = publishes steps + publishes more :=
  List.countP_append

theorem enqueues_append (steps more : List Step) :
    enqueues (steps ++ more) = enqueues steps + enqueues more := by
  rw [enqueues, List.filterMap_append, List.length_append, enqueues, enqueues]

namespace Snapshot

variable {options : IndexOptions} {past : List Step} {s : Snapshot}

/-! ### Trees and index -/

/-- The index has the symbols of the trees under the spellings of the trees, or
    nothing if the project keeps no index. -/
def Mirrored (options : IndexOptions) (s : Snapshot) : Prop :=
  s.index.files = if options.crossAutoComplete then s.trees.mapValues Tree.symbols else {}

theorem Mirrored.drop (mirrored : s.Mirrored options) (file : Path) : (s.drop file).Mirrored options := by
  show s.index.files.erase file = _
  rw [mirrored]
  cases on : options.crossAutoComplete with
  | true => simp [Snapshot.drop, PathMap.mapValues_erase]
  | false => rfl

theorem Mirrored.put (mirrored : s.Mirrored options) (file : Path) (t : Tree) :
    (s.put options file t).Mirrored options := by
  rw [Mirrored] at mirrored ⊢
  cases on : options.crossAutoComplete with
  | true =>
    simp only [on, if_true] at mirrored
    simp [Snapshot.put, on, SymbolIndex.updateTree, mirrored, PathMap.mapValues_insert]
  | false =>
    simp only [on] at mirrored
    simp [Snapshot.put, on, mirrored]

/-- A pass keeps the index in step with the trees, whatever it removes and updates. -/
theorem Mirrored.advance (mirrored : s.Mirrored options) (batch : PathMap Change) :
    (s.advance options batch).Mirrored options := by
  have removals : (batch.entries.foldl applyRemoval s).Mirrored options := by
    refine List.foldlRecOn batch.entries applyRemoval mirrored fun s mirrored e _ => ?_
    rw [applyRemoval]
    split
    · exact mirrored.drop e.1
    · exact mirrored
  refine List.foldlRecOn batch.entries (applyUpdate options) removals fun s mirrored e _ => ?_
  rw [applyUpdate]
  split
  · exact mirrored
  · exact mirrored.put e.1 _

/-! ### Trees and texts -/

/-- Every tree is made from a text that was enqueued for its file. -/
def Sourced (options : IndexOptions) (past : List Step) (s : Snapshot) : Prop :=
  ∀ file t, s.trees.get? file = some t →
    ∃ text, Enqueued past file (.update text) ∧ t = parse options.parse text

theorem Sourced.append (sourced : s.Sourced options past) (more : List Step) :
    s.Sourced options (past ++ more) := by
  intro file t found
  obtain ⟨text, enqueued, made⟩ := sourced file t found
  exact ⟨text, enqueued.append more, made⟩

theorem Sourced.advance (sourced : s.Sourced options past) {batch : PathMap Change}
    (known : ∀ file c, batch.get? file = some c → Enqueued past file c) :
    (s.advance options batch).Sourced options past := by
  intro file t found
  rw [trees_advance] at found
  cases due : batch.get? file with
  | none =>
    rw [due] at found
    exact sourced file t found
  | some c =>
    rw [due] at found
    cases c with
    | remove => cases found
    | update text =>
      cases found
      exact ⟨text, known file _ due, rfl⟩

/-! ### Coherence -/

/-- How a snapshot hangs together after the steps that led to it. -/
structure Coherent (options : IndexOptions) (past : List Step) (s : Snapshot) : Prop where
  /-- The index lists exactly the files that have trees. -/
  files : options.crossAutoComplete = true → s.index.files.paths = s.trees.paths
  /-- The symbols of a file are those of its tree. -/
  symbols : options.crossAutoComplete = true → ∀ file t, s.trees.get? file = some t →
    s.index.files.get? file = some t.symbols
  unindexed : options.crossAutoComplete = false → s.index.files.isEmpty = true
  sourced : s.Sourced options past
  generation : s.generation = publishes past

theorem Mirrored.coherent (mirrored : s.Mirrored options) (sourced : s.Sourced options past)
    (counted : s.generation = publishes past) : s.Coherent options past := by
  rw [Mirrored] at mirrored
  refine ⟨?_, ?_, ?_, sourced, counted⟩
  · intro on
    simp [mirrored, on]
  · intro on file t found
    simp [mirrored, on, found]
  · intro off
    rw [mirrored, off]
    rfl

end Snapshot

namespace Worker

variable {options : IndexOptions} {past : List Step} {w w' : Worker}

/-! ### What every step keeps -/

/-- What a worker owes to the steps that led to it. Every change that waits or is
    in flight will lead to at most one pass, so together with the passes so far
    they are not more than the changes that came in (`room`). -/
structure Accounted (options : IndexOptions) (past : List Step) (w : Worker) : Prop where
  mirrored : w.current.Mirrored options
  sourced : w.current.Sourced options past
  waiting : ∀ file c, w.pending.get? file = some c → Enqueued past file c
  taken : ∀ file c, w.inFlight.get? file = some c → Enqueued past file c
  busy : ∀ batch, w.phase = .reading batch → batch.isEmpty = false
  counted : w.current.generation = publishes past
  room : w.current.generation + w.inFlight.entries.length + w.pending.entries.length ≤ enqueues past

theorem Accounted.start : Accounted options [] {} where
  mirrored := by
    rw [Snapshot.Mirrored]
    cases options.crossAutoComplete <;> rfl
  sourced file t found := by cases found
  waiting file c found := by cases found
  taken file c found := by cases found
  busy batch reads := by cases reads
  counted := rfl
  room := Nat.le_refl 0

theorem Accounted.enqueue (accounted : Accounted options past w) (q : Path) (c : Change) :
    Accounted options (past ++ [.enqueue q c]) { w with pending := w.pending.insert q c } where
  mirrored := accounted.mirrored
  sourced := accounted.sourced.append _
  waiting file d found := by
    rw [PathMap.get?_insert] at found
    by_cases own : q.same file = true
    · rw [if_pos own] at found
      cases found
      exact enqueued_last past c own
    · rw [if_neg own] at found
      exact (accounted.waiting file d found).append _
  taken file d found := (accounted.taken file d found).append _
  busy := accounted.busy
  counted := by
    rw [publishes_append]
    exact accounted.counted
  room := by
    have before := accounted.room
    have longer := w.pending.length_insert_le q c
    have one : enqueues [.enqueue q c] = 1 := rfl
    rw [enqueues_append, one]
    show w.current.generation + w.inFlight.entries.length + (w.pending.insert q c).entries.length ≤ _
    omega

theorem Accounted.publish (accounted : Accounted options past w) {batch : PathMap Change}
    (reads : w.phase = .reading batch) :
    Accounted options (past ++ [.publish])
      { w with phase := .published, current := w.current.advance options batch } where
  mirrored := accounted.mirrored.advance batch
  sourced := by
    refine (accounted.sourced.advance fun file c found => ?_).append _
    exact accounted.taken file c (by rwa [inFlight, reads])
  waiting file c found := (accounted.waiting file c found).append _
  taken file c found := by cases found
  busy batch' reading := by cases reading
  counted := by
    rw [publishes_append, ← accounted.counted]
    rfl
  room := by
    have before := accounted.room
    have flying : w.inFlight = batch := by rw [inFlight, reads]
    -- The batch is not empty, so that one of its changes pays for the pass.
    have one : 0 < batch.entries.length :=
      List.length_pos_iff.mpr (List.isEmpty_eq_false_iff.mp (accounted.busy batch reads))
    rw [flying] at before
    rw [enqueues_append]
    show w.current.generation + 1 + 0 + w.pending.entries.length ≤ enqueues past + 0
    omega

/-- A step that publishes nothing keeps everything, if it only moves changes that
    waited already. -/
theorem Accounted.of_same (accounted : Accounted options past w) {s : Step}
    (unpublished : s.isPublish = false) (current : w'.current = w.current)
    (waiting : ∀ file c, w'.pending.get? file = some c → Enqueued past file c)
    (taken : ∀ file c, w'.inFlight.get? file = some c → Enqueued past file c)
    (busy : ∀ batch, w'.phase = .reading batch → batch.isEmpty = false)
    (room : w'.inFlight.entries.length + w'.pending.entries.length ≤
      w.inFlight.entries.length + w.pending.entries.length) : Accounted options (past ++ [s]) w' where
  mirrored := current ▸ accounted.mirrored
  sourced := current ▸ accounted.sourced.append _
  waiting file c found := (waiting file c found).append _
  taken file c found := (taken file c found).append _
  busy := busy
  counted := by
    rw [publishes_append, current, accounted.counted]
    simp [publishes, unpublished]
  room := by
    have before := accounted.room
    rw [enqueues_append, current]
    omega

/-- Every step keeps the accounts. -/
theorem Accounted.step {s : Step} (accounted : Accounted options past w) (moved : Moves options w s w') :
    Accounted options (past ++ [s]) w' := by
  have nothing : ∀ file c, ({} : PathMap Change).get? file = some c → Enqueued past file c :=
    fun file c found => by cases found
  cases moved with
  | enqueue q c => exact accounted.enqueue q c
  | take waits due serves =>
    refine accounted.of_same rfl rfl nothing accounted.waiting ?_ ?_
    · intro batch reads
      cases reads
      exact due
    · show w.pending.entries.length + 0 ≤ _
      omega
  | publish batch reads => exact accounted.publish reads
  | finish done =>
    refine accounted.of_same rfl rfl accounted.waiting nothing (fun batch reads => by cases reads) ?_
    exact Nat.add_le_add_right (Nat.zero_le _) _
  | shutdown =>
    exact accounted.of_same rfl rfl accounted.waiting accounted.taken accounted.busy (Nat.le_refl _)
  | leave waits told =>
    refine accounted.of_same rfl rfl accounted.waiting nothing (fun batch reads => by cases reads) ?_
    exact Nat.add_le_add_right (Nat.zero_le _) _

theorem run_accounted {steps : List Step} (ran : run? options {} steps = some w) :
    Accounted options steps w :=
  run_induction Accounted.start Accounted.step ran

/-! ### Whole runs -/

theorem run?_append (w : Worker) (steps more : List Step) :
    run? options w (steps ++ more) = (run? options w steps).bind (run? options · more) := by
  induction steps generalizing w with
  | nil => rfl
  | cons s rest ih =>
    rw [List.cons_append, run?, run?, Option.bind_assoc]
    exact congrArg _ (funext ih)

theorem generation_mono {steps more : List Step} (ran : run? options {} steps = some w)
    (onwards : run? options w more = some w') : w.current.generation ≤ w'.current.generation := by
  have whole : run? options {} (steps ++ more) = some w' := by rw [run?_append, ran, Option.bind_some, onwards]
  rw [(run_accounted ran).counted, (run_accounted whole).counted, publishes_append]
  exact Nat.le_add_right ..

/-- Every snapshot that is ever current is coherent. Its generation is at most the
    number of the changes that were enqueued, and no later snapshot has a smaller
    one. Whatever is published is made from a batch that is not empty. -/
theorem run_coherent (options : IndexOptions) (steps : List Step) (w : Worker)
    (ran : run? options {} steps = some w) :
    w.current.Coherent options steps ∧
    w.current.generation ≤ enqueues steps ∧
    (∀ w', w.step? options .publish = some w' → ∃ batch, w.phase = .reading batch ∧
      batch.isEmpty = false ∧ w'.current = w.current.advance options batch) ∧
    ∀ more w', run? options w more = some w' → w.current.generation ≤ w'.current.generation := by
  have accounted := run_accounted ran
  refine ⟨accounted.mirrored.coherent accounted.sourced accounted.counted, ?_, ?_, ?_⟩
  · have room := accounted.room
    omega
  · intro w' published
    cases step?_eq_some_iff.mp published with
    | publish batch reads => exact ⟨batch, reads, accounted.busy batch reads, rfl⟩
  · intro more w' onwards
    exact generation_mono ran onwards

/-- Three passes: a file arrives, is updated under another spelling together with
    the removal of a file that nobody knows, and is removed under a third one. -/
theorem run_coherent_respelled :
    ∃ steps w, run? {} {} steps = some w ∧ w.current.Coherent {} steps ∧
      w.current.trees.paths = [⟨"c".toList⟩] ∧ publishes steps = 3 ∧ enqueues steps = 5 :=
  let steps : List Step := [.enqueue ⟨"a//b".toList⟩ (.update "on join:".toList), .take, .publish, .finish,
    .enqueue ⟨"a/b".toList⟩ (.update "on quit:".toList), .enqueue ⟨"x".toList⟩ .remove, .take,
    .enqueue ⟨"a/./b".toList⟩ .remove, .enqueue ⟨"c".toList⟩ (.update "options:".toList),
    .publish, .finish, .take, .publish, .finish]
  ⟨steps, _, rfl, (run_coherent {} steps _ rfl).1, by decide +kernel, rfl, rfl⟩

end Worker
end ScriptAtlas
