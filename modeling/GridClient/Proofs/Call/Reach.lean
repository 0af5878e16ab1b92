import GridClient.Call.Request
import GridClient.Proofs.Program.Reach

/-!
# Runs of calls

A call waits for attempts only; the time, the topologies it reads, its measurements and
its notes take no time. The attempts that a request makes until it is settled concern
its own operation or, in between, a ping; the first answer that completes one of them
settles it.
-/

namespace GridClient
namespace Call

variable {σ α β : Type}

abbrev Event (σ : Type) : Type :=
  Program.Event (Answer σ)

abbrev Trace (σ : Type) : Type :=
  Program.Trace (Answer σ)

abbrev Stand (σ α : Type) : Type :=
  Program.Stand (Ask σ) α

/-- The asks that take time. -/
def Ask.Waits : Ask σ → Prop
  | .attempt _ => True
  | .round _ _ => True
  | _ => False

abbrev Reaches (p : Call σ α) (trace : Trace σ) (stand : Stand σ α) : Prop :=
  Program.Reaches Ask.Waits p trace stand

variable {trace : Trace σ} {stand : Stand σ β}

/-- A call asks for something that takes no time and goes on. -/
theorem reaches_at_once {q : Ask σ} {f : Answer σ q → Call σ β} (hq : ¬ q.Waits) :
    Reaches (.ask q f) trace stand ↔
      ∃ answer rest, trace = ⟨q, answer⟩ :: rest ∧ Reaches (f answer) rest stand :=
  Program.reaches_ask_of_not_waits hq

theorem reaches_now {f : Instant → Call σ β} :
    Reaches (now >>= f) trace stand ↔
      ∃ (time : Instant) (rest : Trace σ),
        trace = ⟨.now, time⟩ :: rest ∧ Reaches (f time) rest stand :=
  reaches_at_once (q := .now) (f := f) id

theorem reaches_topology {cache : Bytes} {f : Topology → Call σ β} :
    Reaches (topology cache >>= f) trace stand ↔
      ∃ (t : Topology) (rest : Trace σ),
        trace = ⟨.topology cache, t⟩ :: rest ∧ Reaches (f t) rest stand :=
  reaches_at_once (q := .topology cache) (f := f) id

theorem reaches_record {m : Measurement} {f : Unit → Call σ β} :
    Reaches (record m >>= f) trace stand ↔
      ∃ rest, trace = ⟨.record m, ()⟩ :: rest ∧ Reaches (f ()) rest stand := by
  have h : Reaches (record m >>= f) trace stand ↔ _ := reaches_at_once (q := .record m) (f := f) id
  rw [h]
  constructor
  · intro hrun
    rcases hrun with ⟨_, rest, h⟩
    exact ⟨rest, h⟩
  · intro hrun
    rcases hrun with ⟨rest, h⟩
    exact ⟨(), rest, h⟩

theorem reaches_note {s : σ} {f : Unit → Call σ β} :
    Reaches (note s >>= f) trace stand ↔
      ∃ rest, trace = ⟨.note s, ()⟩ :: rest ∧ Reaches (f ()) rest stand := by
  have h : Reaches (note s >>= f) trace stand ↔ _ := reaches_at_once (q := .note s) (f := f) id
  rw [h]
  constructor
  · intro hrun
    rcases hrun with ⟨_, rest, h⟩
    exact ⟨rest, h⟩
  · intro hrun
    rcases hrun with ⟨rest, h⟩
    exact ⟨(), rest, h⟩

theorem reaches_attempt {op : OpCode} {a : Attempt op} {f : Outcome op.Reply → Call σ β} :
    Reaches (attempt a >>= f) trace stand ↔
      (trace = [] ∧ stand = .waiting (.attempt a)) ∨
        ∃ (o : Outcome op.Reply) (rest : Trace σ),
          trace = ⟨.attempt a, o⟩ :: rest ∧ Reaches (f o) rest stand := by
  have h : Reaches (.ask (.attempt a) f) trace stand ↔ _ := Program.reaches_ask
  exact h.trans (or_congr_left (and_iff_right trivial))

end Call
end GridClient
