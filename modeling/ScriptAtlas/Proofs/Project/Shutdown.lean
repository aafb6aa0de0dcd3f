import ScriptAtlas.Proofs.Project.Coherence

/-!
A project is frozen by its shutdown. The worker takes no batch any more once it is
told to stop, so all that can still happen is that it publishes the batch that it is
reading (`frozen_onwards`). A batch holds what was gathered up to the moment it was
taken, and no batch is taken later, so nothing that is enqueued after the worker was
told to stop is ever published (`Dated`, `run_frozen`).
-/
namespace ScriptAtlas

/-- The changes that wait after some steps: those enqueued since a batch was last taken. -/
def gathered (steps : List Step) : PathMap Change :=
  steps.foldl (fun waiting s =>
    match s with
    | .enqueue file change => waiting.insert file change
    | .take => {}
    | _ => waiting) {}

theorem gathered_concat (steps : List Step) (s : Step) :
    gathered (steps ++ [s]) =
      match s with
      | .enqueue file change => (gathered steps).insert file change
      | .take => {}
      | _ => gathered steps := by
  rw [gathered, List.foldl_append]
  rfl

namespace Worker

variable {options : IndexOptions} {past : List Step} {v w : Worker}

/-! ### Where a batch comes from -/

/-- A batch was taken after some steps, before the worker was told to stop, and it is
    what had been gathered by then. No other batch has been taken since. -/
def TakenFrom (past : List Step) (batch : PathMap Change) : Prop :=
  ∃ early since, past = early ++ .take :: since ∧ .take ∉ since ∧ .shutdown ∉ early ∧ batch = gathered early

theorem TakenFrom.append {batch : PathMap Change} (taken : TakenFrom past batch) {s : Step} (other : s ≠ .take) :
    TakenFrom (past ++ [s]) batch := by
  obtain ⟨early, since, rfl, none, before, made⟩ := taken
  refine ⟨early, since ++ [s], by simp, ?_, before, made⟩
  simp [none, other.symm]

/-- What a worker knows of the steps that led to it: whether it is told to stop, and
    where the changes that wait and those in flight come from. -/
structure Dated (past : List Step) (w : Worker) : Prop where
  told : w.shutdown = true ↔ .shutdown ∈ past
  waiting : w.pending = gathered past
  taken : ∀ batch, w.phase = .reading batch → TakenFrom past batch
  left : w.phase = .gone → .shutdown ∈ past

theorem Dated.start : Dated [] {} where
  told := by simp
  waiting := rfl
  taken batch reads := by cases reads
  left gone := by cases gone

/-- A step that neither takes a batch nor asks for shutdown nor leaves keeps the dates. -/
theorem Dated.of_same {w' : Worker} {s : Step} (dated : Dated past w) (quiet : s ≠ .take ∧ s ≠ .shutdown)
    (told : w'.shutdown = w.shutdown) (waiting : w'.pending = gathered (past ++ [s]))
    (taken : ∀ batch, w'.phase = .reading batch → w.phase = .reading batch)
    (left : w'.phase = .gone → w.phase = .gone) : Dated (past ++ [s]) w' where
  told := by
    rw [told, dated.told]
    simp [quiet.2.symm]
  waiting := waiting
  taken batch reads := (dated.taken batch (taken batch reads)).append quiet.1
  left gone := List.mem_append_left _ (dated.left (left gone))

theorem Dated.take (dated : Dated past w) (serves : w.shutdown = false) :
    Dated (past ++ [.take]) { w with pending := {}, phase := .reading w.pending } where
  told := by
    show w.shutdown = true ↔ _
    rw [dated.told]
    simp
  waiting := by rw [gathered_concat]
  taken batch reads := by
    have early : .shutdown ∉ past := fun told => by
      rw [dated.told.mpr told] at serves
      cases serves
    cases reads
    exact ⟨past, [], rfl, List.not_mem_nil, early, dated.waiting⟩
  left gone := by cases gone

theorem Dated.shutdown (dated : Dated past w) : Dated (past ++ [.shutdown]) { w with shutdown := true } where
  told := by simp
  waiting := by
    rw [gathered_concat]
    exact dated.waiting
  taken batch reads := (dated.taken batch reads).append fun same => by cases same
  left _ := by simp

/-- Every step keeps the dates. -/
theorem Dated.step {s : Step} {w' : Worker} (dated : Dated past w) (moved : Moves options w s w') :
    Dated (past ++ [s]) w' := by
  have waiting := dated.waiting
  cases moved with
  | enqueue file change =>
    refine dated.of_same (by simp) rfl ?_ (fun _ reads => reads) fun gone => gone
    rw [gathered_concat, ← waiting]
  | take _ _ serves => exact dated.take serves
  | publish batch reads =>
    refine dated.of_same (by simp) rfl ?_ (fun _ reading => by cases reading) fun gone => by cases gone
    rw [gathered_concat, ← waiting]
  | finish =>
    refine dated.of_same (by simp) rfl ?_ (fun _ reading => by cases reading) fun gone => by cases gone
    rw [gathered_concat, ← waiting]
  | shutdown => exact dated.shutdown
  | leave _ told =>
    have asked := dated.told.mp told
    exact {
      told := by
        show w.shutdown = true ↔ _
        rw [dated.told]
        simp
      waiting := by
        rw [gathered_concat]
        exact waiting
      taken := fun batch reading => by cases reading
      left := fun _ => List.mem_append_left _ asked }

theorem run_dated {steps : List Step} (ran : run? options {} steps = some w) : Dated steps w :=
  run_induction Dated.start Dated.step ran

/-! ### What can still happen -/

/-- What steps can do with a worker that is told to stop: nothing to its snapshot, or
    once what the batch that it reads says. -/
def Settles (options : IndexOptions) (v : Worker) (steps : List Step) (w : Worker) : Prop :=
  publishes steps = 0 ∧ w.current = v.current ∨
    publishes steps = 1 ∧ ∃ batch, v.phase = .reading batch ∧ w.current = v.current.advance options batch

/-- A step that publishes nothing and brings no batch leaves what can still happen. -/
theorem Settles.cons {v' : Worker} {s : Step} {rest : List Step} (settles : Settles options v' rest w)
    (unpublished : s.isPublish = false) (current : v'.current = v.current)
    (phase : ∀ batch, v'.phase = .reading batch → v.phase = .reading batch) : Settles options v (s :: rest) w := by
  have count : publishes (s :: rest) = publishes rest := by
    rw [publishes, List.countP_cons, unpublished]
    rfl
  rw [Settles, count, ← current]
  rcases settles with nothing | ⟨once, batch, reads, made⟩
  · exact Or.inl nothing
  · exact Or.inr ⟨once, batch, phase batch reads, made⟩

/-- A worker that has been told to stop takes no batch, however the steps go on, and
    publishes at most the batch that it is reading. -/
theorem frozen_onwards {more : List Step} (onwards : run? options v more = some w) (told : v.shutdown = true) :
    .take ∉ more ∧ Settles options v more w := by
  induction more generalizing v with
  | nil =>
    cases onwards
    exact ⟨List.not_mem_nil, Or.inl ⟨rfl, rfl⟩⟩
  | cons s rest ih =>
    rw [run?] at onwards
    obtain ⟨v', moved, onwards⟩ := Option.bind_eq_some_iff.mp onwards
    cases step?_eq_some_iff.mp moved with
    | enqueue file change =>
      obtain ⟨none, settles⟩ := ih onwards told
      exact ⟨by simp [none], settles.cons rfl rfl fun _ reads => reads⟩
    | take _ _ serves =>
      rw [told] at serves
      cases serves
    | publish batch reads =>
      obtain ⟨none, settles⟩ := ih onwards told
      refine ⟨by simp [none], ?_⟩
      -- Nothing is being read any more, so the pass was the last one.
      rcases settles with ⟨nothing, same⟩ | ⟨-, _, reading, -⟩
      · refine Or.inr ⟨?_, batch, reads, same⟩
        rw [publishes, List.countP_cons, ← publishes, nothing]
        rfl
      · cases reading
    | finish =>
      obtain ⟨none, settles⟩ := ih onwards told
      exact ⟨by simp [none], settles.cons rfl rfl fun _ reads => by cases reads⟩
    | shutdown =>
      obtain ⟨none, settles⟩ := ih onwards rfl
      exact ⟨by simp [none], settles.cons rfl rfl fun _ reads => reads⟩
    | leave =>
      obtain ⟨none, settles⟩ := ih onwards told
      exact ⟨by simp [none], settles.cons rfl rfl fun _ reads => by cases reads⟩

/-- Whatever is published is a batch that was gathered before shutdown was asked for,
    from changes enqueued before. -/
theorem published_early {earlier later : List Step} (ran : run? options {} (earlier ++ .publish :: later) = some w) :
    ∃ u batch, run? options {} earlier = some u ∧ u.phase = .reading batch ∧ TakenFrom earlier batch ∧
      ∀ file c, batch.get? file = some c → ∃ early, early <+: earlier ∧ .shutdown ∉ early ∧ Enqueued early file c := by
  rw [run?_append] at ran
  obtain ⟨u, earlier_ran, onwards⟩ := Option.bind_eq_some_iff.mp ran
  rw [run?] at onwards
  obtain ⟨u', moved, -⟩ := Option.bind_eq_some_iff.mp onwards
  cases step?_eq_some_iff.mp moved with
  | publish batch reads =>
    have taken := (run_dated earlier_ran).taken batch reads
    refine ⟨u, batch, earlier_ran, reads, taken, fun file c found => ?_⟩
    obtain ⟨early, since, rfl, -, before, rfl⟩ := taken
    rw [run?_append] at earlier_ran
    obtain ⟨x, early_ran, -⟩ := Option.bind_eq_some_iff.mp earlier_ran
    rw [← (run_dated early_ran).waiting] at found
    exact ⟨early, List.prefix_append .., before, (run_accounted early_ran).waiting file c found⟩

/-- Once shutdown has been asked for, no batch is taken, and at most the batch that is
    being read is published. Once the worker has left, the snapshot stays as it is. A
    batch that is ever published was gathered before shutdown was asked for, and so
    every change in it was enqueued before. -/
theorem run_frozen (options : IndexOptions) (past more : List Step) (v w : Worker)
    (ran : run? options {} past = some v) (onwards : run? options v more = some w) :
    (.shutdown ∈ past → .take ∉ more ∧
      (publishes more = 0 ∧ w.current = v.current ∨
        publishes more = 1 ∧ ∃ batch, v.phase = .reading batch ∧ TakenFrom past batch ∧
          w.current = v.current.advance options batch)) ∧
    (v.phase = .gone → .shutdown ∈ past ∧ publishes more = 0 ∧ w.current = v.current) ∧
    ∀ earlier later, past = earlier ++ .publish :: later →
      ∃ u batch, run? options {} earlier = some u ∧ u.phase = .reading batch ∧ TakenFrom earlier batch ∧
        ∀ file c, batch.get? file = some c →
          ∃ early, early <+: earlier ∧ .shutdown ∉ early ∧ Enqueued early file c := by
  have dated := run_dated ran
  refine ⟨fun asked => ?_, fun gone => ?_, fun earlier later split => ?_⟩
  · obtain ⟨none, nothing | ⟨once, batch, reads, made⟩⟩ := frozen_onwards onwards (dated.told.mpr asked)
    · exact ⟨none, Or.inl nothing⟩
    · exact ⟨none, Or.inr ⟨once, batch, reads, dated.taken batch reads, made⟩⟩
  · have asked := dated.left gone
    rcases (frozen_onwards onwards (dated.told.mpr asked)).2 with nothing | ⟨-, batch, reads, -⟩
    · exact ⟨asked, nothing⟩
    · rw [gone] at reads
      cases reads
  · rw [split] at ran
    exact published_early ran

/-- Shutdown is asked for while a batch is read; a change of the same file comes in
    afterwards, and the worker leaves without it. -/
theorem run_frozen_reading :
    ∃ past more v w, run? {} {} past = some v ∧ run? {} v more = some w ∧ .shutdown ∈ past ∧ .take ∉ more ∧
      publishes more = 1 ∧ w.phase = .gone ∧
      w.current.trees.get? ⟨"a".toList⟩ = some (parse {} "on join:".toList) ∧
      w.pending.get? ⟨"a".toList⟩ = some (.update "on quit:".toList) :=
  let past : List Step := [.enqueue ⟨"a".toList⟩ (.update "on join:".toList), .take, .shutdown,
    .enqueue ⟨"a/".toList⟩ .remove]
  let more : List Step := [.enqueue ⟨"a".toList⟩ (.update "on quit:".toList), .publish, .finish, .shutdown, .leave]
  have frozen := run_frozen {} past more _ _ rfl rfl
  ⟨past, more, _, _, rfl, rfl, by simp [past], (frozen.1 (by simp [past])).1, rfl, rfl, rfl, rfl⟩

end Worker
end ScriptAtlas
