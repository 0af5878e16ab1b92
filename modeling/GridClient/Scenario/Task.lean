import GridClient.Scenario.Cluster

/-!
# Tasks

Calls in progress on a scripted cluster. A call runs on as long as what it asks
for is there at once; then it is a task that waits, for one attempt or for the
attempts of a round. A task that is dropped gives back the channels it holds.
-/

namespace GridClient

structure Waiting (α : Type) where
  ends : Instant
  order : Nat
  guard : Option Guard
  resume : Cluster → Exchange α × Cluster

/-- An attempt that has run as far as it can. -/
inductive Progressed (α : Type) where
  | done (a : α)
  | waiting (w : Waiting α)

namespace Exchange

def advance {α : Type} : Exchange α → Cluster → Progressed α × Cluster
  | .done a, c => (.done a, c)
  | .ask q next, c =>
      let (wait, c) := c.serve q
      if wait.ends ≤ c.clock then
        let (answer, c) := wait.finish c
        advance (next answer) c
      else
        (.waiting
          { ends := wait.ends
            order := c.waits
            guard := q.guard?
            resume := fun c =>
              let (answer, c) := wait.finish c
              (next answer, c) },
          { c with waits := c.waits + 1 })

end Exchange

namespace Waiting

variable {α : Type}

def proceed (w : Waiting α) (c : Cluster) : Progressed α × Cluster :=
  let (rest, c) := w.resume c
  rest.advance c

def drop (w : Waiting α) (c : Cluster) : Cluster :=
  match w.guard with
  | some g => (g.drop.advance c).2
  | none => c

/-- Whether an attempt goes on before another one. -/
def before (v : Waiting α) (w : Waiting β) : Bool :=
  v.ends < w.ends || (v.ends == w.ends && v.order ≤ w.order)

end Waiting

/-- The attempts of a round that wait, with their places. -/
abbrev Open (op : OpCode) : Type :=
  List (Nat × Waiting (Outcome op.Reply))

/-- The outcomes of a round so far, in the order of arrival. -/
abbrev Arrived (op : OpCode) : Type :=
  List (Nat × Outcome op.Reply)

inductive Task (σ α : Type) where
  | done (a : α)
  | single {op : OpCode} (w : Waiting (Outcome op.Reply)) (next : Outcome op.Reply → Call σ α)
  | round {op : OpCode} (first : Nat × Waiting (Outcome op.Reply)) (others : Open op)
      (arrived : Arrived op) (arrival : Outcome op.Reply → List Measurement)
      (next : Arrived op → Call σ α)

/-- A task with the note it has left last. -/
structure Running (σ α : Type) where
  note : σ
  task : Task σ α

namespace Cluster

def recordAll (c : Cluster) (ms : List Measurement) : Cluster :=
  { c with client := ms.foldl Client.record c.client }

/-- Files an attempt of a round under those that wait or those that have arrived. -/
def file {op : OpCode} (arrival : Outcome op.Reply → List Measurement) (place : Nat)
    (waiting : Open op) (arrived : Arrived op) :
    Progressed (Outcome op.Reply) × Cluster → Open op × Arrived op × Cluster
  | (.waiting w, c) => (waiting ++ [(place, w)], arrived, c)
  | (.done o, c) => (waiting, arrived ++ [(place, o)], c.recordAll (arrival o))

def startRound {op : OpCode} (arrival : Outcome op.Reply → List Measurement)
    (as : List (Attempt op)) (c : Cluster) : Open op × Arrived op × Cluster :=
  as.zipIdx.foldl
    (fun (waiting, arrived, c) (a, place) =>
      file arrival place waiting arrived (a.run.advance c)) ([], [], c)

end Cluster

namespace Call

variable {σ α : Type}

def advance : Call σ α → σ → Cluster → Running σ α × Cluster
  | .done a, s, c => (⟨s, .done a⟩, c)
  | .ask .now next, s, c => advance (next c.clock) s c
  | .ask (.topology cache) next, s, c => advance (next (c.client.registry.current cache)) s c
  | .ask (.record m) next, s, c => advance (next ()) s (c.recordAll [m])
  | .ask (.note s) next, _, c => advance (next ()) s c
  | .ask (.attempt a) next, s, c =>
      match a.run.advance c with
      | (.done o, c) => advance (next o) s c
      | (.waiting w, c) => (⟨s, .single w next⟩, c)
  | .ask (.round as arrival) next, s, c =>
      match Cluster.startRound arrival as c with
      | ([], arrived, c) => advance (next arrived) s c
      | (first :: others, arrived, c) => (⟨s, .round first others arrived arrival next⟩, c)

end Call

namespace Running

variable {σ α : Type}

def result? (r : Running σ α) : Option α :=
  match r.task with
  | .done a => some a
  | _ => none

/-- Takes the attempt that goes on first out of a round. -/
def pick {op : OpCode} (first : Nat × Waiting (Outcome op.Reply)) :
    Open op → (Nat × Waiting (Outcome op.Reply)) × Open op
  | [] => (first, [])
  | w :: rest =>
      let (chosen, others) := pick w rest
      if first.2.before chosen.2 then (first, w :: rest) else (chosen, first :: others)

def turn? (r : Running σ α) : Option (Instant × Nat) :=
  match r.task with
  | .done _ => none
  | .single w _ => some (w.ends, w.order)
  | .round first others _ _ _ =>
      let (_, w) := (pick first others).1
      some (w.ends, w.order)

def proceed (r : Running σ α) (c : Cluster) : Running σ α × Cluster :=
  match r.task with
  | .done _ => (r, c)
  | .single w next =>
      match w.proceed c with
      | (.done o, c) => (next o).advance r.note c
      | (.waiting w, c) => (⟨r.note, .single w next⟩, c)
  | .round first others arrived arrival next =>
      let ((place, w), others) := pick first others
      match Cluster.file arrival place others arrived (w.proceed c) with
      | ([], arrived, c) => (next arrived).advance r.note c
      | (first :: others, arrived, c) => (⟨r.note, .round first others arrived arrival next⟩, c)

def drop (r : Running σ α) (c : Cluster) : Cluster :=
  match r.task with
  | .done _ => c
  | .single w _ => w.drop c
  | .round first others _ _ _ => (first :: others).foldl (fun c (_, w) => w.drop c) c

end Running
end GridClient
