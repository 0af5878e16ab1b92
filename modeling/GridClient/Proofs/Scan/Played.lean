import GridClient.Proofs.Scan.Life

/-!
# Played lives

A life of a scan against answers that are fixed beforehand. The topologies, the outcomes
of the requests that start iterations and the outcomes of the pulls stand in lists and are
handed out one by one.
-/

namespace GridClient
namespace Scan

/-- What is answered, in order; the last topology stays. -/
structure Answers where
  topologies : List Topology
  starts : List (Outcome Cursor) := []
  pages : List (Outcome Page) := []

namespace Answers

/-- The topology of a client that has not heard from any server. -/
def unheard : Topology :=
  .initial .hashDistributionAware []

def silence {α : Type} : Outcome α :=
  .failed (.timeout "no answer")

def topology (answers : Answers) : Topology × Answers :=
  match answers.topologies with
  | [] => (unheard, answers)
  | [t] => (t, answers)
  | t :: rest => (t, { answers with topologies := rest })

def attempt (answers : Answers) : (op : OpCode) → Outcome op.Reply × Answers
  | .iterationStart =>
      match answers.starts with
      | [] => (silence, answers)
      | o :: rest => (o, { answers with starts := rest })
  | .iterationNext =>
      match answers.pages with
      | [] => (silence, answers)
      | o :: rest => (o, { answers with pages := rest })
  | .iterationEnd => (.completed true, answers)
  | _ => (silence, answers)

def answer : (q : Call.Ask Scan) → Answers → Call.Answer Scan q × Answers
  | .now, answers => ((0 : Nat), answers)
  | .topology _, answers => answers.topology
  | .record _, answers => ((), answers)
  | .note _, answers => ((), answers)
  | @Call.Ask.attempt _ op _, answers => answers.attempt op
  | .round _ _, answers => ([], answers)

end Answers

/-- The history of a scan that calls for so many pages, with its state and the answers
that are left. A call that is cut off after `turns` turns is left out. -/
def played (turns : Nat) (start : Scan) (answers : Answers) :
    Nat → List Called × Scan × Answers
  | 0 => ([], start, answers)
  | calls + 1 =>
      let (history, s, left) := played turns start answers calls
      match (nextPage turns s).play Answers.answer left with
      | (trace, (some r, t), left) => (history ++ [⟨trace, .returned r⟩], t, left)
      | (_, (none, _), _) => (history, s, left)

theorem reaches_answered (turns : Nat) (s : Scan) (answers : Answers) :
    Call.Reaches (nextPage turns s) ((nextPage turns s).play Answers.answer answers).1
      (.done ((nextPage turns s).play Answers.answer answers).2.1) :=
  Program.reaches_play Answers.answer (nextPage turns s) answers

theorem lives_played (turns : Nat) (start : Scan) (answers : Answers) (calls : Nat) :
    Lives start (played turns start answers calls).1 (played turns start answers calls).2.1 := by
  induction calls with
  | zero => exact .fresh
  | succ calls ih =>
      unfold played
      dsimp only
      have hcall := reaches_answered turns (played turns start answers calls).2.1
        (played turns start answers calls).2.2
      split
      · next trace r t left heq =>
        rw [heq] at hcall
        exact .page ih hcall
      · next trace t left heq => exact ih

theorem returns_played (turns : Nat) (start : Scan) (answers : Answers) (calls : Nat) :
    ∀ c ∈ (played turns start answers calls).1, c.Returns := by
  induction calls with
  | zero => simp [played]
  | succ calls ih =>
      unfold played
      dsimp only
      split
      · intro c hc
        rcases List.mem_append.1 hc with hold | hnew
        · exact ih c hold
        · rw [List.mem_singleton.1 hnew]
          exact ⟨_, rfl⟩
      · exact ih

/-!
# One node
-/

def loneNode : NodeAddress where
  host := "a"
  port := 1

def loneCursor (id : String) : Cursor where
  id := id
  address := loneNode

/-- A new scan of a cache on the node, without patience for losses. -/
def loneScan (segments : Option SegmentSet) : Scan where
  cache := { name := "c", config := { maxRetries := 0 }, intelligence := .hashDistributionAware }
  flags := .none
  options := { segments }

def loneEntry (key : UInt8) : ScanEntry where
  key := [key]
  value := []
  metadata := none
  projections := []

/-- A topology in which the node owns two segments. -/
def loneTopology : Topology where
  epoch := 1
  intelligence := .hashDistributionAware
  servers := [loneNode]
  segments := some ⟨[[loneNode], [loneNode]], by simp⟩

end Scan
end GridClient
