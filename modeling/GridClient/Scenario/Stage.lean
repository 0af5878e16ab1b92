import GridClient.Scenario.Task

/-!
# Stages

A scripted cluster together with the work that goes on in the background. Time
moves only when everything waits, and then to the next instant at which something
goes on. At one instant the calls in the foreground come first, then background work
that has waited for the instant, in the order in which it has begun to wait, and then
the work that has been left in the meantime. Of calls that run side by side another
one is the first at each instant.
-/

namespace GridClient

/-- Background work: the drain of a late response, or a scan's farewell. -/
inductive Chore where
  | drain (w : Waiting Unit)
  | farewell (r : Running Unit Unit)
  | done

namespace Chore

def ofDrain : Progressed Unit → Chore
  | .done _ => done
  | .waiting w => drain w

def begin (c : Cluster) : Errand → Chore × Cluster
  | .drain r =>
      let (p, c) := r.run.advance c
      (ofDrain p, c)
  | .farewell r =>
      let (task, c) := Call.advance (r.execute >>= fun _ => .done ()) () c
      (farewell task, c)

def turn? : Chore → Option (Instant × Nat)
  | drain w => some (w.ends, w.order)
  | farewell r => r.turn?
  | done => none

def proceed (c : Cluster) : Chore → Chore × Cluster
  | drain w =>
      let (p, c) := w.proceed c
      (ofDrain p, c)
  | farewell r =>
      let (task, c) := r.proceed c
      (farewell task, c)
  | done => (done, c)

end Chore

structure Stage where
  cluster : Cluster
  background : List Chore := []

namespace Stage

def runErrands (st : Stage) : Stage :=
  st.cluster.errands.foldl
    (fun st e =>
      let (chore, c) := Chore.begin st.cluster e
      { cluster := c, background := st.background ++ [chore] })
    { st with cluster := { st.cluster with errands := [] } }

/-- The earlier of two turns, the first one if they are equal. -/
def earlierTurn (best : Option (Nat × Instant × Nat)) (place : Nat) (turn : Instant × Nat) :
    Option (Nat × Instant × Nat) :=
  match best with
  | none => some (place, turn)
  | some (_, time, order) =>
      if turn.1 < time || (turn.1 == time && turn.2 < order) then some (place, turn) else best

def first? (turns : List (Option (Instant × Nat))) : Option (Nat × Instant) :=
  (turns.zipIdx.foldl
    (fun best (turn, place) =>
      match turn with
      | some turn => earlierTurn best place turn
      | none => best) none).map fun (place, time, _) => (place, time)

/-- The background work that goes on first. -/
def nextChore? (st : Stage) : Option (Nat × Instant) :=
  first? (st.background.map Chore.turn?)

/-- Runs the background work at a place on. -/
def proceedChore (st : Stage) (place : Nat) : Stage :=
  match st.background[place]? with
  | none => st
  | some chore =>
      let (chore, c) := chore.proceed st.cluster
      { cluster := c
        background := (st.background.set place chore).filter fun w => w.turn?.isSome }

/-- What the background does next, if it needs no time. -/
def goOn? (st : Stage) : Option Stage :=
  match st.nextChore?.filter fun (_, time) => time ≤ st.cluster.clock with
  | some (place, _) => some (st.proceedChore place)
  | none => if st.cluster.errands.isEmpty then none else some st.runErrands

/-- Background work that needs no time; the first argument bounds its pieces. -/
def settle : Nat → Stage → Stage
  | 0, st => st
  | pieces + 1, st =>
      match st.goOn? with
      | some st => settle pieces st
      | none => st

def setClock (st : Stage) (time : Instant) : Stage :=
  { st with cluster := { st.cluster with clock := max st.cluster.clock time } }

/-- A foreground of tasks that run side by side until they are done or dropped. A round
is an instant at which tasks go on. -/
structure Foreground (σ α : Type) where
  stage : Stage
  tasks : List (Running σ α)
  rounds : Nat := 0
  dropped : Bool := false

namespace Foreground

variable {σ α : Type}

def proceedTask (f : Foreground σ α) (place : Nat) : Foreground σ α :=
  match f.tasks[place]? with
  | none => f
  | some r =>
      let (r, c) := r.proceed f.stage.cluster
      { f with stage := { f.stage with cluster := c }, tasks := f.tasks.set place r }

/-- The instant at which a task goes on. -/
def next? (f : Foreground σ α) : Option Instant :=
  (f.tasks.filterMap fun r => r.turn?.map Prod.fst).min?

/-- The place of the task that goes on now. Each round begins with another task. -/
def due? (f : Foreground σ α) : Option Nat :=
  ((List.range f.tasks.length).rotateLeft f.rounds).find? fun place =>
    (f.tasks[place]?.bind Running.turn?).any fun (time, _) => time ≤ f.stage.cluster.clock

def drop (f : Foreground σ α) : Foreground σ α :=
  { f with
    stage := { f.stage with cluster := f.tasks.foldl (fun c r => r.drop c) f.stage.cluster }
    dropped := true }

/-- Moves to the next instant at which something happens, if there is one. -/
def moveOn (f : Foreground σ α) (cancelAt : Option Instant) : Foreground σ α :=
  let back := f.stage.nextChore?.map Prod.snd
  match ([f.next?, back, cancelAt].filterMap id).min? with
  | none => f
  | some time =>
      { f with
        stage := f.stage.setClock time
        rounds := if f.next? = some time then f.rounds + 1 else f.rounds }

/-- What happens next: a foreground task goes on, the foreground is dropped,
background work goes on, or time moves. -/
def step (f : Foreground σ α) (cancelAt : Option Instant) : Foreground σ α :=
  match f.due? with
  | some place => f.proceedTask place
  | none =>
      if cancelAt.any fun time => time ≤ f.stage.cluster.clock then f.drop
      else
        match f.stage.goOn? with
        | some stage => { f with stage }
        | none => f.moveOn cancelAt

/-- Takes steps until the tasks are done or dropped; the first argument bounds
their number. -/
def run (cancelAt : Option Instant) : Nat → Foreground σ α → Foreground σ α
  | 0, f => f
  | steps + 1, f =>
      if f.dropped || f.tasks.all fun r => r.turn?.isNone then f
      else run cancelAt steps (f.step cancelAt)

def pass (time : Instant) : Nat → Foreground σ α → Foreground σ α
  | 0, f => f
  | steps + 1, f => if f.dropped then f else pass time steps (f.step (some time))

end Foreground

/-- Starts calls side by side, the first one first. -/
def start {σ α : Type} (st : Stage) (calls : List (σ × Call σ α)) : Foreground σ α :=
  let (tasks, c) :=
    calls.foldl
      (fun (tasks, c) (s, call) =>
        let (r, c) := call.advance s c
        (tasks ++ [r], c)) (([] : List (Running σ α)), st.cluster)
  { stage := { st with cluster := c }, tasks }

end Stage
end GridClient
