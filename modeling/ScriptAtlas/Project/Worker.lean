import ScriptAtlas.Project.Snapshot

/-!
The worker that keeps a project up to date, as a machine of single steps.
Changes wait in a queue, where a later change of a file replaces an earlier
one. The worker takes all that wait as one batch, publishes the snapshot made
from it and finishes the pass. Once shutdown is asked for no batch is taken any
more, and the worker leaves after the pass that is under way.
-/
namespace ScriptAtlas

/-- What the worker is doing. -/
inductive Phase
  /-- It waits for changes. -/
  | waiting
  /-- It reads the scripts of a batch that it has taken. -/
  | reading (batch : PathMap Change)
  /-- It has published the snapshot of its batch. -/
  | published
  /-- It has left for good. -/
  | gone
deriving Repr

/-- Whether a pass is under way. -/
def Phase.isRunning : Phase → Bool
  | reading _ | published => true
  | waiting | gone => false

/-- The worker with its queue and the snapshot that readers see. -/
structure Worker where
  pending : PathMap Change := {}
  phase : Phase := .waiting
  shutdown : Bool := false
  current : Snapshot := {}
deriving Repr

/-- What can happen to the worker. -/
inductive Step
  | enqueue (file : Path) (change : Change)
  | take
  | publish
  | finish
  | shutdown
  | leave
deriving Repr

namespace Worker

/-- The worker after a step, if the step is possible. Changes can be enqueued
    and shutdown can be asked for at any time. -/
def step? (options : IndexOptions) (w : Worker) : Step → Option Worker
  | .enqueue file change => some { w with pending := w.pending.insert file change }
  | .take =>
    match w.phase with
    | .waiting =>
      if w.pending.isEmpty || w.shutdown then none
      else some { w with pending := {}, phase := .reading w.pending }
    | _ => none
  | .publish =>
    match w.phase with
    | .reading batch =>
      some { w with phase := .published, current := w.current.advance options batch }
    | _ => none
  | .finish =>
    match w.phase with
    | .published => some { w with phase := .waiting }
    | _ => none
  | .shutdown => some { w with shutdown := true }
  | .leave =>
    match w.phase with
    | .waiting => if w.shutdown then some { w with phase := .gone } else none
    | _ => none

/-- The worker after a run of steps, if each of them is possible. -/
def run? (options : IndexOptions) (w : Worker) : List Step → Option Worker
  | [] => some w
  | s :: rest => (w.step? options s).bind (run? options · rest)

/-- Whether nothing waits and no pass is under way. -/
def isIdle (w : Worker) : Bool := w.pending.isEmpty && !w.phase.isRunning

/-- The worker once it has nothing to do: after one pass over all that waits,
    or unchanged if it may not take a batch. -/
def settle (options : IndexOptions) (w : Worker) : Worker :=
  (w.run? options [.take, .publish, .finish]).getD w

/-- The worker after it has been told to stop and has left. -/
def stop (options : IndexOptions) (w : Worker) : Worker :=
  let told := { w with shutdown := true }
  (told.step? options .leave).getD told

end Worker
end ScriptAtlas
