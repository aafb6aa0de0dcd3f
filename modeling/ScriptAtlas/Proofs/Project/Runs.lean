import ScriptAtlas.Project.Worker

/-!
The runs of a worker. `Moves` says of every step when it is possible and what it
changes, apart from the function that carries it out (`step?_eq_some_iff`). What
one step preserves a whole run preserves (`run_induction`).
-/
namespace ScriptAtlas.Worker

variable {options : IndexOptions}

/-- A worker can take a step, and what it is after it. -/
inductive Moves (options : IndexOptions) : Worker → Step → Worker → Prop
  /-- A client enqueues a change, whatever the worker is doing. -/
  | enqueue (w : Worker) (file : Path) (change : Change) :
      Moves options w (.enqueue file change) { w with pending := w.pending.insert file change }
  /-- A worker that waits takes all that is pending, unless it is told to stop. -/
  | take (w : Worker) (waits : w.phase = .waiting) (due : w.pending.isEmpty = false)
      (serves : w.shutdown = false) :
      Moves options w .take { w with pending := {}, phase := .reading w.pending }
  | publish (w : Worker) (batch : PathMap Change) (reads : w.phase = .reading batch) :
      Moves options w .publish
        { w with phase := .published, current := w.current.advance options batch }
  | finish (w : Worker) (done : w.phase = .published) :
      Moves options w .finish { w with phase := .waiting }
  | shutdown (w : Worker) : Moves options w .shutdown { w with shutdown := true }
  /-- A worker that was told to stop leaves once no pass is under way. -/
  | leave (w : Worker) (waits : w.phase = .waiting) (told : w.shutdown = true) :
      Moves options w .leave { w with phase := .gone }

/-- The steps of a worker are exactly its moves. -/
theorem step?_eq_some_iff {w w' : Worker} {s : Step} :
    w.step? options s = some w' ↔ Moves options w s w' := by
  constructor
  · intro moved
    cases s with
    | enqueue file change => cases moved; exact .enqueue w file change
    | take =>
      simp only [step?] at moved
      split at moved
      · rename_i waits
        split at moved
        · cases moved
        · rename_i may
          cases moved
          simp only [Bool.or_eq_true, not_or, Bool.not_eq_true] at may
          exact .take w waits may.1 may.2
      · cases moved
    | publish =>
      simp only [step?] at moved
      split at moved
      · rename_i batch reads
        cases moved
        exact .publish w batch reads
      · cases moved
    | finish =>
      simp only [step?] at moved
      split at moved
      · rename_i done
        cases moved
        exact .finish w done
      · cases moved
    | shutdown => cases moved; exact .shutdown w
    | leave =>
      simp only [step?] at moved
      split at moved
      · rename_i waits
        split at moved
        · rename_i told
          cases moved
          exact .leave w waits told
        · cases moved
      · cases moved
  · intro moved
    cases moved with
    | enqueue file change => rfl
    | take waits due serves => simp [step?, waits, due, serves]
    | publish batch reads => simp [step?, reads]
    | finish done => simp [step?, done]
    | shutdown => rfl
    | leave waits told => simp [step?, waits, told]

/-- A relation between the steps so far and the worker that holds at the
    beginning and is kept by every move holds after every run. -/
theorem run_induction {Inv : List Step → Worker → Prop} (start : Inv [] {})
    (keeps : ∀ {past w s w'}, Inv past w → Moves options w s w' → Inv (past ++ [s]) w')
    {steps : List Step} {w : Worker} (ran : run? options {} steps = some w) : Inv steps w := by
  have onwards : ∀ (steps past : List Step) (v : Worker), Inv past v →
      run? options v steps = some w → Inv (past ++ steps) w := by
    intro steps
    induction steps with
    | nil =>
      intro past v holds ran
      cases ran
      rwa [List.append_nil]
    | cons s rest ih =>
      intro past v holds ran
      rw [run?] at ran
      obtain ⟨v', moved, ran⟩ := Option.bind_eq_some_iff.mp ran
      have next := ih (past ++ [s]) v' (keeps holds (step?_eq_some_iff.mp moved)) ran
      rwa [List.append_assoc] at next
  exact onwards steps [] {} start ran

end ScriptAtlas.Worker
