import ScriptAtlas.Proofs.Project.Runs

/-!
A worker loses no change and keeps their order. At any time the last change
enqueued for a file is the one that is pending for it, else the one of the batch
that is being read, else the current snapshot shows it (`run_shows_last`). So the
snapshot of an idle worker has, for every file, what its last change says.
-/
namespace ScriptAtlas

/-- The change that a step enqueues, with its file. -/
def Step.enqueued? : Step → Option (Path × Change)
  | .enqueue file change => some (file, change)
  | _ => none

/-- The last change that steps enqueue for a file, however it is spelled. -/
def lastChange? (steps : List Step) (file : Path) : Option Change :=
  ((steps.filterMap Step.enqueued?).reverse.find? fun e => e.1.components = file.components).map (·.2)

/-- The tree that a file has after a change. -/
def Change.tree? (options : ParseOptions) : Change → Option Tree
  | .update text => some (parse options text)
  | .remove => none

theorem lastChange?_enqueue (past : List Step) (q : Path) (c : Change) (file : Path) :
    lastChange? (past ++ [.enqueue q c]) file =
      if q.same file then some c else lastChange? past file := by
  rw [lastChange?, List.filterMap_append, List.reverse_append]
  by_cases same : q.components = file.components
  · simp [Step.enqueued?, same, Path.same_iff.mpr same]
  · have other : q.same file = false := Bool.eq_false_iff.mpr fun h => same (Path.same_iff.mp h)
    simp [Step.enqueued?, same, other, lastChange?]

/-- A step that enqueues nothing leaves the last changes as they are. -/
theorem lastChange?_silent (past : List Step) {s : Step} (silent : s.enqueued? = none) (file : Path) :
    lastChange? (past ++ [s]) file = lastChange? past file := by
  simp [lastChange?, silent]

namespace Worker

variable {options : IndexOptions}

/-- The batch that has been taken and is not yet published. -/
def inFlight (w : Worker) : PathMap Change :=
  match w.phase with
  | .reading batch => batch
  | _ => {}

/-- The change of a file that the current snapshot does not show yet. -/
def due? (w : Worker) (file : Path) : Option Change :=
  (w.pending.get? file).or (w.inFlight.get? file)

/-- How a worker stands to the steps that led to it. -/
structure Reflects (options : IndexOptions) (past : List Step) (w : Worker) : Prop where
  due : ∀ file c, w.due? file = some c → lastChange? past file = some c
  shown : ∀ file, w.due? file = none →
    w.current.trees.get? file = (lastChange? past file).bind (Change.tree? options.parse)
  indexed : ∀ file, w.current.index.files.get? file =
    if options.crossAutoComplete then (w.current.trees.get? file).map Tree.symbols else none

theorem due?_enqueue (w : Worker) (q : Path) (c : Change) (file : Path) :
    due? { w with pending := w.pending.insert q c } file =
      if q.same file then some c else w.due? file := by
  rw [due?, PathMap.get?_insert]
  cases q.same file <;> rfl

/-- Taking a batch moves the changes that are due and changes none of them. -/
theorem due?_take {w : Worker} (waits : w.phase = .waiting) (file : Path) :
    due? { w with pending := {}, phase := .reading w.pending } file = w.due? file := by
  have before : w.inFlight.get? file = none := by rw [inFlight, waits]; rfl
  rw [due?, due?, before, Option.or_none]
  rfl

/-- A step that takes no batch, publishes none and enqueues nothing keeps everything. -/
theorem Reflects.of_same {past : List Step} {w w' : Worker} {s : Step} (reflects : Reflects options past w)
    (silent : s.enqueued? = none) (due : ∀ file, w'.due? file = w.due? file)
    (current : w'.current = w.current) : Reflects options (past ++ [s]) w' where
  due file c found := by
    rw [lastChange?_silent past silent]
    exact reflects.due file c (due file ▸ found)
  shown file none := by
    rw [lastChange?_silent past silent, current]
    exact reflects.shown file (due file ▸ none)
  indexed file := by
    rw [current]
    exact reflects.indexed file

theorem Reflects.enqueue {past : List Step} {w : Worker} (reflects : Reflects options past w)
    (q : Path) (c : Change) :
    Reflects options (past ++ [.enqueue q c]) { w with pending := w.pending.insert q c } where
  due file d found := by
    rw [due?_enqueue] at found
    rw [lastChange?_enqueue]
    cases own : q.same file with
    | true => simpa [own] using found
    | false => exact reflects.due file d (by simpa [own] using found)
  shown file none := by
    rw [due?_enqueue] at none
    rw [lastChange?_enqueue]
    cases own : q.same file with
    | true => simp [own] at none
    | false => exact reflects.shown file (by simpa [own] using none)
  indexed := reflects.indexed

/-- Publishing shows the changes of the batch, except where a later change of
    the same file is pending already. -/
theorem Reflects.publish {past : List Step} {w : Worker} (reflects : Reflects options past w)
    {batch : PathMap Change} (reads : w.phase = .reading batch) :
    Reflects options (past ++ [.publish])
      { w with phase := .published, current := w.current.advance options batch } where
  due file c found := by
    rw [lastChange?_silent past rfl]
    refine reflects.due file c ?_
    have pending : w.pending.get? file = some c := by simpa [due?, inFlight] using found
    rw [due?, pending, Option.some_or]
  shown file none := by
    have pending : w.pending.get? file = Option.none := by simpa [due?, inFlight] using none
    -- Nothing newer is pending, so the change of the batch is the last one.
    have due : w.due? file = batch.get? file := by rw [due?, pending, inFlight, reads, Option.none_or]
    rw [lastChange?_silent past rfl, Snapshot.trees_advance]
    cases found : batch.get? file with
    | none => exact reflects.shown file (due.trans found)
    | some c =>
      rw [reflects.due file c (due.trans found)]
      cases c <;> rfl
  indexed file := by
    have before := reflects.indexed file
    rw [Snapshot.trees_advance, Snapshot.index_advance]
    rcases batch.get? file with _ | _ | _
    · exact before
    · cases on : options.crossAutoComplete <;> simp_all
    · cases options.crossAutoComplete <;> rfl

/-- Every step keeps what a worker has to do with the steps before it. -/
theorem Reflects.step {past : List Step} {w w' : Worker} {s : Step} (reflects : Reflects options past w)
    (moved : Moves options w s w') : Reflects options (past ++ [s]) w' := by
  cases moved with
  | enqueue q c => exact reflects.enqueue q c
  | take waits => exact reflects.of_same rfl (due?_take waits) rfl
  | publish batch reads => exact reflects.publish reads
  | finish done => exact reflects.of_same rfl (fun file => by simp [due?, inFlight, done]) rfl
  | shutdown => exact reflects.of_same rfl (fun _ => rfl) rfl
  | leave waits => exact reflects.of_same rfl (fun file => by simp [due?, inFlight, waits]) rfl

theorem run_reflects {steps : List Step} {w : Worker} (ran : run? options {} steps = some w) :
    Reflects options steps w := by
  refine run_induction ⟨fun file c due => ?_, fun file _ => rfl, fun file => ?_⟩ Reflects.step ran
  · cases due
  · cases options.crossAutoComplete <;> rfl

theorem due?_idle {w : Worker} (idle : w.isIdle = true) (file : Path) : w.due? file = none := by
  simp only [isIdle, Bool.and_eq_true, Bool.not_eq_true'] at idle
  have pending : w.pending.get? file = none := by
    rw [PathMap.get?, List.isEmpty_iff.mp idle.1]
    rfl
  rw [due?, pending, inFlight]
  split
  · rename_i reads
    rw [reads] at idle
    cases idle.2
  · rfl

/-- After any run the last change of every file is the pending one, else the one
    of the batch in flight, else the snapshot has the tree that it says. An idle
    worker shows the last change of every file, and its index has the symbols of
    exactly these trees, if it keeps any. -/
theorem run_shows_last (options : IndexOptions) (steps : List Step) (w : Worker)
    (ran : run? options {} steps = some w) :
    (∀ file, match w.pending.get? file, w.inFlight.get? file with
      | some c, _ => lastChange? steps file = some c
      | none, some c => lastChange? steps file = some c
      | none, none =>
        w.current.trees.get? file = (lastChange? steps file).bind (Change.tree? options.parse)) ∧
    (w.isIdle = true → ∀ file,
      w.current.trees.get? file = (lastChange? steps file).bind (Change.tree? options.parse) ∧
      w.current.index.files.get? file =
        if options.crossAutoComplete then (w.current.trees.get? file).map Tree.symbols else none) := by
  have reflects := run_reflects ran
  constructor
  · intro file
    have due := reflects.due file
    have shown := reflects.shown file
    rw [due?] at due shown
    cases pending : w.pending.get? file with
    | some c => exact due c (by rw [pending, Option.some_or])
    | none =>
      cases taken : w.inFlight.get? file with
      | some c => exact due c (by rw [pending, taken, Option.none_or])
      | none => exact shown (by rw [pending, taken, Option.none_or])
  · intro idle file
    exact ⟨reflects.shown file (due?_idle idle file), reflects.indexed file⟩

/-- A file that is updated, then removed under another spelling while its first
    change is in flight, and a second file that arrives with the removal. -/
theorem run_shows_last_removed_in_flight :
    ∃ steps w, run? {} {} steps = some w ∧ w.isIdle = true ∧
      lastChange? steps ⟨"a/b".toList⟩ = some .remove ∧
      w.current.trees.get? ⟨"a/b".toList⟩ = none ∧
      w.current.trees.get? ⟨"c".toList⟩ = some (parse {} "on quit:".toList) :=
  let steps : List Step := [.enqueue ⟨"a//b".toList⟩ (.update "on join:".toList), .take,
    .enqueue ⟨"a/./b".toList⟩ .remove, .enqueue ⟨"c".toList⟩ (.update "on quit:".toList),
    .publish, .finish, .take, .publish, .finish]
  have shown := run_shows_last {} steps _ rfl
  ⟨steps, _, rfl, rfl, by decide, (shown.2 rfl ⟨"a/b".toList⟩).1, (shown.2 rfl ⟨"c".toList⟩).1⟩

end Worker
end ScriptAtlas
